import FileTransfer.Interaction.Mailbox
import FileTransfer.Pipeline.Smooth
import FileTransfer.Pipeline.UploadProgress

/-!
# The local archive as a mailbox

The downloader deposits entries in the archive, the uploader collects them by
sending the archive and unlinking it. Both work on copies: `zip_close` writes
back what `zip_open` found, and `upload_file` gives the semaphore back before
the archive is unlinked. So the hand-off is exact just as long as no append
commits between the two halves of a collection, nor across its end.
-/

namespace FileTransfer

set_option autoImplicit false

open Interaction

/-- The abstract mailbox: names and contents that appends have committed, those
in the archives sent and removed, and those in the archive. -/
def mailbox (history : History) (world : World) : Mailbox (Bytes × Bytes) where
  deposited := history.committed
  collected := history.collected.flatMap (·.stored)
  pending := world.entries.map (·.stored)

/-- Nothing committed is lost or handed over twice, every archive removed was in
the bytes of a completed upload, and from the unlink to the next upload the
archive holds what was committed since the last one opened it. -/
structure HandedOff (history : History) (world : World) : Prop where
  exact : (mailbox history world).Exact
  delivered : ∀ file ∈ history.collected, (file, file.bytes) ∈ history.uploads
  fresh : history.removed = true →
    world.entries.map (·.stored) = history.sinceSnapshot

/-- `zip_close` writes back the archive as it is, and the archive is unlinked
as `upload_file` opened it. -/
def CopiesCurrent : PipelineCondition libraryEnv :=
  fun trace state event => match event with
    | .left (.append _ _ _ _ (.zipClose archive)) (.written _) =>
        archive.originals.map (·.stored) = state.world.entries.map (·.stored)
    | .right .unlink true => (history none trace).sinceSnapshot = []
    | _ => True

instance (trace : List (PipelineEvent libraryEnv)) (state : PipelineState libraryEnv)
    (event : PipelineEvent libraryEnv) : Decidable (CopiesCurrent trace state event) := by
  unfold CopiesCurrent
  split <;> infer_instance

/-- No overlap, on a disk that serves its reads. -/
def NoOverlap : PipelineCondition libraryEnv :=
  fun trace state event => ReadsComplete trace state event ∧ CopiesCurrent trace state event

instance (trace : List (PipelineEvent libraryEnv)) (state : PipelineState libraryEnv)
    (event : PipelineEvent libraryEnv) : Decidable (NoOverlap trace state event) :=
  inferInstanceAs (Decidable (_ ∧ _))

/-- As long as the archive has not been unlinked, it is what `upload_file`
opened and what has been committed since. -/
structure Pending (history : History) (world : World) : Prop where
  handedOff : HandedOff history world
  growing : history.removed = false → ∀ file, history.snapshot = some file →
    world.entries.map (·.stored) = file.stored ++ history.sinceSnapshot

structure UploadQuiet (pc : UploadPc) (answer : (pc.call remoteHost2 remote2DestPath).Answer)
    (world world' : World) : Prop where
  localZip : world'.localZip = world.localZip
  committed : ∀ history : History, (history.recordUpload pc answer).committed = history.committed
  collected : ∀ history : History, (history.recordUpload pc answer).collected = history.collected
  sinceSnapshot : ∀ history : History,
    (history.recordUpload pc answer).sinceSnapshot = history.sinceSnapshot
  snapshot : ∀ history : History, (history.recordUpload pc answer).snapshot = history.snapshot
  removed : ∀ history : History, (history.recordUpload pc answer).removed = history.removed
  uploads : ∀ history : History, history.uploads ⊆ (history.recordUpload pc answer).uploads

inductive UploadEffect (world : World) :
    (pc : UploadPc) → (pc.call remoteHost2 remote2DestPath).Answer → World → Prop where
  | opens {file : ZipFile} (present : world.localZip = some file) :
      UploadEffect world (.upload .ifstreamOpen) (some file) world
  | removes : UploadEffect world .unlink true { world with localZip := none }
  | quiet {pc : UploadPc} {answer : (pc.call remoteHost2 remote2DestPath).Answer}
      {world' : World} (same : UploadQuiet pc answer world world') :
      UploadEffect world pc answer world'

theorem upload_quiet {world world' : World} {pc : UploadPc}
    {answer : (pc.call remoteHost2 remote2DestPath).Answer}
    (localZip : world'.localZip = world.localZip)
    (records : ∀ history : History, history.recordUpload pc answer = history) :
    UploadEffect world pc answer world' :=
  .quiet {
    localZip := localZip
    committed := fun history => by rw [records]
    collected := fun history => by rw [records]
    sinceSnapshot := fun history => by rw [records]
    snapshot := fun history => by rw [records]
    removed := fun history => by rw [records]
    uploads := fun history => by rw [records]; exact List.Subset.refl _ }

theorem upload_file_effect {world world' : World} {pc : UploadFilePc}
    {answer : ((UploadPc.upload pc).call remoteHost2 remote2DestPath).Answer}
    (responds : world.respond ((UploadPc.upload pc).call remoteHost2 remote2DestPath) answer =
      some world') : UploadEffect world (.upload pc) answer world' := by
  cases pc with
  | ifstreamOpen =>
      cases answer with
      | none => exact upload_quiet (World.respond_quiet responds rfl).1 fun _ => rfl
      | some file =>
          have present := World.respond_ifstream_open localZipPath responds
          obtain rfl : world' = world := World.respond_after responds
          exact .opens present
  | sftpOpen stream =>
      cases answer <;> cases responds <;>
        exact .quiet ⟨rfl, fun _ => rfl, fun _ => rfl, fun _ => rfl, fun _ => rfl, fun _ => rfl,
          fun _ => List.Subset.refl _⟩
  | sftpWrite stream block =>
      cases answer <;> cases responds <;>
        exact .quiet ⟨rfl, fun _ => rfl, fun _ => rfl, fun _ => rfl, fun _ => rfl, fun _ => rfl,
          fun _ => List.Subset.refl _⟩
  | semPost result =>
      have same := (World.respond_quiet responds rfl).1
      cases result with
      | false => exact upload_quiet same fun _ => rfl
      | true =>
          exact .quiet ⟨same, fun _ => rfl, fun _ => rfl, fun _ => rfl, fun _ => rfl,
            fun _ => rfl, fun _ => List.subset_append_right _ _⟩
  | _ => exact upload_quiet (World.respond_quiet responds rfl).1 fun _ => rfl

theorem upload_effect {world world' : World} {pc : UploadPc}
    {answer : (pc.call remoteHost2 remote2DestPath).Answer}
    (responds : world.respond (pc.call remoteHost2 remote2DestPath) answer = some world') :
    UploadEffect world pc answer world' := by
  cases pc with
  | upload pc => exact upload_file_effect responds
  | unlink =>
      cases answer with
      | false => cases responds; exact upload_quiet rfl fun _ => rfl
      | true =>
          obtain rfl : world' = { world with localZip := none } := World.respond_after responds
          exact .removes
  | session pc | sftp pc =>
      exact upload_quiet (World.respond_quiet responds (by cases pc <;> rfl)).1 fun _ => rfl
  | _ => exact upload_quiet (World.respond_quiet responds rfl).1 fun _ => rfl

theorem Pending.same {history : History} {world world' : World} (pending : Pending history world)
    (localZip : world'.localZip = world.localZip) : Pending history world' := by
  obtain ⟨⟨exact', delivered, fresh⟩, growing⟩ := pending
  have entries : world'.entries = world.entries := by rw [World.entries, localZip]; rfl
  refine ⟨⟨?_, delivered, ?_⟩, ?_⟩
  · rw [mailbox, entries]
    exact exact'
  · rw [entries]
    exact fresh
  · rw [entries]
    exact growing

theorem mailbox_commit {history : History} {world : World} {archive : Zip} {written : ZipFile}
    (stored : written.stored = archive.originals.map (·.stored) ++ archive.buffered) :
    mailbox (history.commit archive written) { world with localZip := some written } =
      (mailbox history world).deposit (archive.originals.map (·.stored)) archive.buffered := by
  simp only [mailbox, Mailbox.deposit, History.commit, World.entries, Option.elim_some, ← stored,
    ZipFile.stored]

theorem mailbox_unlink {history : History} {world : World} {file : ZipFile}
    (snapshot : history.snapshot = some file) :
    mailbox (history.recordUpload .unlink true) { world with localZip := none } =
      (mailbox history world).collect file.stored := by
  simp [mailbox, Mailbox.collect, History.recordUpload, snapshot, World.entries]

theorem pending_commit {history : History} {world : World} {archive : Zip} {written : ZipFile}
    (before : Pending history world)
    (stored : written.stored = archive.originals.map (·.stored) ++ archive.buffered)
    (current : archive.originals.map (·.stored) = world.entries.map (·.stored)) :
    Pending (history.commit archive written) { world with localZip := some written } := by
  obtain ⟨⟨exact', delivered, fresh⟩, growing⟩ := before
  have now : written.entries.map (·.stored) =
      world.entries.map (·.stored) ++ archive.buffered := current ▸ stored
  refine ⟨⟨?_, delivered, ?_⟩, ?_⟩
  · rw [mailbox_commit stored]
    exact (Mailbox.deposit_exact_iff exact' _ _).mpr current
  · intro removed
    have since := fresh removed
    change written.entries.map (·.stored) = history.sinceSnapshot ++ archive.buffered
    rw [now, since]
  · intro kept file opened
    have grown := growing kept file opened
    change written.entries.map (·.stored) =
      file.stored ++ (history.sinceSnapshot ++ archive.buffered)
    rw [now, grown, List.append_assoc]

theorem pending_unlink {history : History} {world : World} {file : ZipFile}
    (before : Pending history world) (uploaded : Uploaded history world file)
    (nothing : history.sinceSnapshot = []) :
    Pending (history.recordUpload .unlink true) { world with localZip := none } := by
  obtain ⟨⟨exact', delivered, _⟩, growing⟩ := before
  obtain ⟨snapshot, kept, uploads, _⟩ := uploaded
  refine ⟨⟨?_, ?_, fun _ => nothing.symm⟩, nofun⟩
  · rw [mailbox_unlink snapshot, Mailbox.collect_exact_iff exact']
    have grown := growing kept file snapshot
    rw [nothing, List.append_nil] at grown
    exact grown.symm
  · intro sent member
    change sent ∈ history.collected ++ history.snapshot.toList at member
    rw [snapshot, Option.toList_some, List.mem_append, List.mem_singleton] at member
    rcases member with earlier | rfl
    · exact delivered sent earlier
    · exact List.mem_of_head? uploads

theorem pending_download_step {history : History} {pc : DownloadPc}
    {answer : (pc.call remoteHost1).Answer} {trace : List (PipelineEvent libraryEnv)}
    {right : Option UploadPc} {world world' : World} (before : Pending history world)
    (sound : pc.Sound) (responds : world.respond (pc.call remoteHost1) answer = some world')
    (current : CopiesCurrent trace ⟨some pc, right, world⟩ (.left pc answer)) :
    Pending (history.recordDownload pc answer) world' := by
  cases download_effect responds with
  | opens found => exact before
  | commit closes => exact pending_commit before (commit_stored sound closes).2 current
  | quiet records localZip remoteFile opened =>
      rw [records]
      exact before.same localZip

theorem pending_upload_step {trace : List (PipelineEvent libraryEnv)} {pc : UploadPc}
    {answer : (pc.call remoteHost2 remote2DestPath).Answer} {left : Option DownloadPc}
    {world world' : World} (before : Pending (history none trace) world)
    (sound : pc.Sound (history none trace) world)
    (responds : world.respond (pc.call remoteHost2 remote2DestPath) answer = some world')
    (current : CopiesCurrent trace ⟨left, some pc, world⟩ (.right pc answer)) :
    Pending ((history none trace).recordUpload pc answer) world' := by
  cases upload_effect responds with
  | @opens file present =>
      obtain ⟨⟨exact', delivered, _⟩, _⟩ := before
      refine ⟨⟨exact', delivered, nofun⟩, ?_⟩
      intro _ file' opened
      cases opened
      change world.entries.map (·.stored) = file.stored ++ []
      rw [World.entries, present, List.append_nil]
      rfl
  | removes =>
      obtain ⟨file, uploaded⟩ := sound
      exact pending_unlink before uploaded current
  | quiet same =>
      obtain ⟨⟨exact', delivered, fresh⟩, growing⟩ := before.same same.localZip
      refine ⟨⟨?_, ?_, ?_⟩, ?_⟩
      · rw [mailbox, same.committed, same.collected]
        exact exact'
      · rw [same.collected]
        exact fun file member => same.uploads _ (delivered file member)
      · rw [same.removed, same.sinceSnapshot]
        exact fresh
      · rw [same.removed, same.snapshot, same.sinceSnapshot]
        exact growing

theorem pending {trace : List (PipelineEvent libraryEnv)} {state : PipelineState libraryEnv}
    (run : PipelineRun libraryEnv NoOverlap (Started none) trace state) :
    Pending (history none trace) state.world := by
  refine run.invariant (fun trace state => Pending (history none trace) state.world) ?_ ?_
  · rintro state ⟨_, _, _, _, present⟩
    refine ⟨⟨?_, nofun, nofun⟩, nofun⟩
    simp [mailbox, Mailbox.Exact, History.start, World.entries, present]
  · intro trace state event state' run before met steps
    obtain ⟨_, current⟩ := met
    cases steps with
    | @left pc answer right world world' responds =>
        have sound : pc.Sound := run.keepsLeft download_keeps (fun _ started => started.1) pc rfl
        exact pending_download_step before sound responds current
    | @right pc answer left world world' responds =>
        have upload := (progress (run.weaken fun _ _ _ met => met.1)).upload pc rfl
        exact pending_upload_step before upload responds current
    | @move move left right world world' moves =>
        cases move
        cases moves
        exact before.same rfl

theorem current_of_exact {trace : List (PipelineEvent libraryEnv)}
    {state state' : PipelineState libraryEnv} {event : PipelineEvent libraryEnv}
    (run : PipelineRun libraryEnv NoOverlap (Started none) trace state)
    (steps : Step downloadThread uploadThread libraryEnv state event state')
    (after : (mailbox (history none (event :: trace)) state'.world).Exact) :
    CopiesCurrent trace state event := by
  have before := pending run
  cases steps with
  | @left pc answer right world world' responds =>
      have sound : pc.Sound := run.keepsLeft download_keeps (fun _ started => started.1) pc rfl
      cases download_effect responds with
      | opens found => trivial
      | @commit vars file todo done archive written closes =>
          have deposited : (mailbox ((history none trace).commit archive written)
            { world with localZip := some written }).Exact := after
          rw [mailbox_commit (commit_stored sound closes).2,
            Mailbox.deposit_exact_iff before.handedOff.exact] at deposited
          exact deposited
      | quiet records localZip remoteFile opened =>
          unfold CopiesCurrent
          split
          · rename_i committed
            cases committed
            have more := congrArg History.lastClosed (records (.start none))
            cases more
          · rename_i removed
            cases removed
          · trivial
  | @right pc answer left world world' responds =>
      have upload := (progress (run.weaken fun _ _ _ met => met.1)).upload pc rfl
      cases upload_effect responds with
      | opens present => trivial
      | removes =>
          obtain ⟨file, snapshot, kept, _, _⟩ := upload
          have collected : (mailbox ((history none trace).recordUpload .unlink true)
            { world with localZip := none }).Exact := after
          rw [mailbox_unlink snapshot,
            Mailbox.collect_exact_iff before.handedOff.exact] at collected
          have grown := before.growing kept file snapshot
          exact List.append_right_eq_self.mp (grown.symm.trans collected.symm)
      | quiet same =>
          unfold CopiesCurrent
          split
          · rename_i committed
            cases committed
          · rename_i removed
            cases removed
            have more := same.removed (.start none)
            cases more
          · trivial
  | move moves => trivial

/-- As long as no append commits between the opening of the archive by
`upload_file` and its unlink, or writes back an archive opened before the
unlink, everything is handed off exactly; the first step to do so breaks the
hand-off. -/
theorem archive_handed_off {trace : List (PipelineEvent libraryEnv)}
    {state : PipelineState libraryEnv}
    (run : PipelineRun libraryEnv NoOverlap (Started none) trace state) :
    HandedOff (history none trace) state.world ∧
      ∀ event state', ReadsComplete trace state event →
        Step downloadThread uploadThread libraryEnv state event state' →
          (HandedOff (history none (event :: trace)) state'.world ↔
            CopiesCurrent trace state event) := by
  refine ⟨(pending run).handedOff, ?_⟩
  intro event state' reads steps
  constructor
  · exact fun after => current_of_exact run steps after.exact
  · exact fun current => (pending (.step run ⟨reads, current⟩ steps)).handedOff

/-- One file is appended, uploaded and removed. -/
theorem archive_handed_off_one_file :
    ∃ trace state, PipelineRun libraryEnv NoOverlap (Started none) trace state ∧
      (history none trace).removed = true ∧ HandedOff (history none trace) state.world := by
  have found : ∃ trace state, PipelineRun libraryEnv NoOverlap (Started none) trace state ∧
      (history none trace).removed = true :=
    exists_run_of_play (fun trace state event => decide (NoOverlap trace state event))
      (bothSetUp plainLayout ++ fetches plainLayout (ascii "a") [ascii "text"] 1 1 1 ++
        appends plainLayout ++ checks plainLayout ++ uploads plainLayout ++
        uploadSmoothly plainLayout 1)
      (startState none) _ (fun _ _ _ => of_decide_eq_true) (start_state_started none)
      (by decide +kernel)
  obtain ⟨trace, state, run, removed⟩ := found
  exact ⟨trace, state, run, removed, (archive_handed_off run).1⟩

def UploadPc.unlinkSucceeds : (pc : UploadPc) →
    (pc.call remoteHost2 remote2DestPath).Answer → Bool
  | .unlink, unlinked => unlinked
  | _, _ => true

def UnlinkSucceeds : PipelineCondition libraryEnv :=
  fun _ _ event => match event with
    | .right pc answer => pc.unlinkSucceeds answer = true
    | _ => True

instance (trace : List (PipelineEvent libraryEnv)) (state : PipelineState libraryEnv)
    (event : PipelineEvent libraryEnv) : Decidable (UnlinkSucceeds trace state event) :=
  match event with
  | .right pc answer => inferInstanceAs (Decidable (pc.unlinkSucceeds answer = true))
  | .left _ _ | .move _ => isTrue trivial

def DiskServes : PipelineCondition libraryEnv :=
  fun trace state event => ReadsComplete trace state event ∧ UnlinkSucceeds trace state event

instance (trace : List (PipelineEvent libraryEnv)) (state : PipelineState libraryEnv)
    (event : PipelineEvent libraryEnv) : Decidable (DiskServes trace state event) :=
  inferInstanceAs (Decidable (_ ∧ _))

/-- The first file has been uploaded and its archive is still there; the second
is about to be appended. `calls` of its append come before the unlink. -/
def overlap (calls : Nat) : List (Cue libraryEnv) :=
  bothSetUp plainLayout ++
    fetches plainLayout (ascii "a") [ascii "first"] 1 1 1 ++ appends plainLayout ++
    checks plainLayout ++ uploads plainLayout ++ downloadSmoothly plainLayout 1 ++
    fetches plainLayout (ascii "b") [ascii "second"] 2 2 3 ++
    downloadSmoothly plainLayout calls ++ uploadSmoothly plainLayout 1 ++
    downloadSmoothly plainLayout (8 - calls)

/-- The first file has been uploaded, the second committed since, and the archive
holds `left` after its unlink. -/
structure Overlapped (left : List (Bytes × Bytes)) (history : History) (world : World) :
    Prop where
  removed : history.removed = true
  committed : history.committed = [(ascii "a", ascii "first"), (ascii "b", ascii "second")]
  since : history.sinceSnapshot = [(ascii "b", ascii "second")]
  uploads : history.uploads.map (·.1.stored) = [[(ascii "a", ascii "first")]]
  left : world.entries.map (·.stored) = left

instance (left : List (Bytes × Bytes)) (history : History) (world : World) :
    Decidable (Overlapped left history world) :=
  decidable_of_iff (history.removed = true ∧
    history.committed = [(ascii "a", ascii "first"), (ascii "b", ascii "second")] ∧
    history.sinceSnapshot = [(ascii "b", ascii "second")] ∧
    history.uploads.map (·.1.stored) = [[(ascii "a", ascii "first")]] ∧
    world.entries.map (·.stored) = left)
    ⟨fun ⟨removed, committed, since, uploads, left⟩ => ⟨removed, committed, since, uploads, left⟩,
      fun ⟨removed, committed, since, uploads, left⟩ => ⟨removed, committed, since, uploads, left⟩⟩

theorem overlap_run (calls : Nat) (left : List (Bytes × Bytes))
    (plays : (play (fun trace state event => decide (DiskServes trace state event))
      (overlap calls) [] (startState none)).any (fun ended =>
        decide (Overlapped left (history none ended.1) ended.2.world)) = true) :
    ∃ trace state, PipelineRun libraryEnv DiskServes (Started none) trace state ∧
      Overlapped left (history none trace) state.world := by
  have found : ∃ trace state, PipelineRun libraryEnv DiskServes (Started none) trace state ∧
      decide (Overlapped left (history none trace) state.world) = true :=
    exists_run_of_play _ (overlap calls) (startState none) _ (fun _ _ _ => of_decide_eq_true)
      (start_state_started none) plays
  obtain ⟨trace, state, run, outcome⟩ := found
  exact ⟨trace, state, run, of_decide_eq_true outcome⟩

/-- An append that commits before the unlink is lost; one that opened the
archive before the unlink and commits after it brings the uploaded entry back. -/
theorem overlapping_append_lost_or_brought_back :
    (¬ ∀ trace state, PipelineRun libraryEnv DiskServes (Started none) trace state →
      ∀ entry ∈ (history none trace).committed,
        entry ∈ state.world.entries.map (·.stored) ∨
          ∃ delivery ∈ (history none trace).uploads, entry ∈ delivery.1.stored) ∧
    ¬ ∀ trace state, PipelineRun libraryEnv DiskServes (Started none) trace state →
      (history none trace).removed = true →
        state.world.entries.map (·.stored) = (history none trace).sinceSnapshot := by
  constructor
  · intro handedOff
    obtain ⟨trace, state, run, outcome⟩ := overlap_run 8 [] (by decide +kernel)
    have second := handedOff trace state run (ascii "b", ascii "second")
      (by rw [outcome.committed]; decide)
    rw [outcome.left] at second
    rcases second with missing | ⟨delivery, made, sent⟩
    · cases missing
    · have among := List.mem_map_of_mem (f := fun delivery => delivery.1.stored) made
      rw [outcome.uploads, List.mem_singleton] at among
      rw [among] at sent
      exact absurd sent (by decide)
  · intro fresh
    obtain ⟨trace, state, run, outcome⟩ :=
      overlap_run 2 [(ascii "a", ascii "first"), (ascii "b", ascii "second")]
        (by decide +kernel)
    have same := fresh trace state run outcome.removed
    rw [outcome.left, outcome.since] at same
    exact absurd same (by decide)

end FileTransfer
