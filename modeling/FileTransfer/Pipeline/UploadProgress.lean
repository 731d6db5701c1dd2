import FileTransfer.Pipeline.History
import FileTransfer.Pipeline.SemaphoreDiscipline

/-!
# How far an upload has come

At every point of `upload_routine`, what the events so far say about the file
that was opened, the bytes that were sent and the file on the second host. The
local disk serves every read; the archive can be replaced or grow at any time
outside the critical section.
-/

namespace FileTransfer

set_option autoImplicit false

open Interaction

/-- The local disk does not fail an `ifstream::read`. -/
def UploadPc.readsComplete : (pc : UploadPc) →
    (pc.call remoteHost2 remote2DestPath).Answer → Bool
  | .upload (.ifstreamRead _), disk => DiskRead.isComplete disk
  | _, _ => true

def ReadsComplete {env : Env Call.Answer} : PipelineCondition env :=
  fun _ _ event => match event with
    | .right pc answer => pc.readsComplete answer = true
    | _ => True

instance {env : Env Call.Answer} (trace : List (PipelineEvent env)) (state : PipelineState env)
    (event : PipelineEvent env) : Decidable (ReadsComplete trace state event) :=
  match event with
  | .right pc answer => inferInstanceAs (Decidable (pc.readsComplete answer = true))
  | .left _ _ | .move _ => isTrue trivial

structure Uploading (history : History) (world : World) (file : ZipFile) : Prop where
  snapshot : history.snapshot = some file
  kept : history.removed = false
  localZip : world.localZip = some file

structure Copying (history : History) (world : World) (stream : Ifstream) (taken : Bytes) :
    Prop where
  uploading : Uploading history world stream.file
  taken : taken = stream.file.bytes.take stream.position
  within : stream.position ≤ stream.file.bytes.length
  exhausted : stream.good = false → stream.position = stream.file.bytes.length
  remote : world.remoteFile = some history.sent
  opened : history.delivered = none

structure Copied (history : History) (world : World) (file : ZipFile) : Prop where
  uploading : Uploading history world file
  sent : history.sent = file.bytes
  remote : world.remoteFile = some file.bytes

/-- `upload_file` has returned true and the archive is still to be removed. -/
structure Uploaded (history : History) (world : World) (file : ZipFile) : Prop where
  snapshot : history.snapshot = some file
  kept : history.removed = false
  uploads : history.uploads.head? = some (file, file.bytes)
  present : world.localZip.isSome = true

/-- What the last successful upload sent stands on the second host. -/
structure Delivered (history : History) (world : World) (file : ZipFile) : Prop where
  uploads : history.uploads.head? = some (file, file.bytes)
  remote : world.remoteFile = some file.bytes

def UploadPc.Sound (history : History) (world : World) : UploadPc → Prop
  | .fileSize | .upload .semWait | .upload .ifstreamOpen => world.localZip.isSome = true
  | .upload (.sftpOpen stream) =>
      ∃ file, stream = ⟨file, 0, true⟩ ∧ Uploading history world file
  | .upload (.ifstreamRead stream) => Copying history world stream history.sent
  | .upload (.sftpWrite stream block) => Copying history world stream (history.sent ++ block)
  | .upload (.sftpClose true) | .upload (.semPost true) =>
      ∃ file, Copied history world file
  | .unlink => ∃ file, Uploaded history world file
  | _ => True

theorem Copying.read {history : History} {world : World} {stream : Ifstream} {taken : Bytes}
    (copying : Copying history world stream taken) (count : Nat) :
    Copying history world (stream.read count .complete).2
      (taken ++ (stream.read count .complete).1) := by
  obtain ⟨uploading, takenBytes, within, exhausted, remote, opened⟩ := copying
  cases good : stream.good with
  | false =>
      have unread : stream.read count .complete = ([], stream) := by
        simp [Ifstream.read, good]
      rw [unread, List.append_nil]
      exact ⟨uploading, takenBytes, within, exhausted, remote, opened⟩
  | true =>
      have served : (stream.read count .complete).1 =
          (stream.file.bytes.drop stream.position).take count := by
        simp [Ifstream.read, good]
      have length : (stream.read count .complete).1.length =
          min count (stream.file.bytes.length - stream.position) := by
        rw [served, List.length_take, List.length_drop]
      have position : (stream.read count .complete).2.position =
          stream.position + (stream.read count .complete).1.length := by
        simp [Ifstream.read, good]
      have file : (stream.read count .complete).2.file = stream.file := by
        simp [Ifstream.read, good]
      have stillGood : (stream.read count .complete).2.good =
          decide ((stream.read count .complete).1.length = count) := by
        simp [Ifstream.read, good]
      refine ⟨file ▸ uploading, ?_, ?_, ?_, remote, opened⟩
      · rw [file, position, takenBytes, served, List.take_add]
        congr 1
        rw [List.take_eq_take_iff]
        simp
      · rw [file, position, length]
        omega
      · intro short
        rw [stillGood, decide_eq_false_iff_not] at short
        rw [file, position]
        omega

theorem Copying.ends {history : History} {world : World} {stream : Ifstream} {count : Nat}
    (copying : Copying history world (stream.read count .complete).2
      (history.sent ++ (stream.read count .complete).1))
    (ended : ((stream.read count .complete).2.good ||
      decide (0 < (stream.read count .complete).1.length)) = false) :
    Copied history world stream.file := by
  simp only [Bool.or_eq_false_iff, decide_eq_false_iff_not, Nat.not_lt, Nat.le_zero,
    List.length_eq_zero_iff] at ended
  obtain ⟨uploading, taken, _, exhausted, remote, _⟩ := copying
  have file : (stream.read count .complete).2.file = stream.file := by
    simp only [Ifstream.read]
    split <;> rfl
  have sent : history.sent = stream.file.bytes := by
    rw [ended.2, List.append_nil, exhausted ended.1, List.take_length, file] at taken
    exact taken
  exact ⟨file ▸ uploading, sent, sent ▸ remote⟩

theorem upload_file_sound_step {history : History} {world world' : World} {pc : UploadFilePc}
    {answer : ((UploadPc.upload pc).call remoteHost2 remote2DestPath).Answer}
    (sound : (UploadPc.upload pc).Sound history world)
    (responds : world.respond ((UploadPc.upload pc).call remoteHost2 remote2DestPath) answer =
      some world')
    (reads : (UploadPc.upload pc).readsComplete answer = true) :
    ((UploadPc.upload pc).next remoteHost2 remote2DestPath answer).Meets
      (fun pc' => pc'.Sound (history.recordUpload (.upload pc) answer) world') fun _ => True := by
  cases pc with
  | semWait =>
      have same := World.respond_quiet responds rfl
      change world'.localZip.isSome = true
      rw [same.1]
      exact sound
  | ifstreamOpen =>
      cases answer with
      | none => trivial
      | some file =>
          have present := World.respond_ifstream_open localZipPath responds
          obtain rfl : world' = world := World.respond_after responds
          exact ⟨file, rfl, rfl, rfl, present⟩
  | sftpOpen stream =>
      cases answer with
      | false => trivial
      | true =>
          obtain ⟨file, rfl, snapshot, kept, localZip⟩ := sound
          cases responds
          exact {
            uploading := ⟨snapshot, kept, localZip⟩
            taken := rfl
            within := Nat.zero_le _
            exhausted := by
              intro lost
              cases lost
            remote := rfl
            opened := rfl }
  | ifstreamRead stream =>
      have complete : answer = .complete := by
        cases answer with
        | complete => rfl
        | error => cases reads
      subst complete
      have same := World.respond_quiet responds rfl
      have copying : Copying history world' stream history.sent := by
        obtain ⟨⟨snapshot, kept, localZip⟩, taken, within, exhausted, remote, opened⟩ := sound
        exact ⟨⟨snapshot, kept, same.1.trans localZip⟩, taken, within, exhausted,
          same.2.trans remote, opened⟩
      have read := copying.read 4096
      simp only [UploadPc.next, UploadFilePc.next]
      cases more : (stream.read 4096 .complete).2.good ||
          decide (0 < (stream.read 4096 .complete).1.length) with
      | true =>
          rw [if_pos rfl]
          exact read
      | false =>
          rw [if_neg (by simp)]
          exact ⟨stream.file, read.ends more⟩
  | sftpWrite stream block =>
      cases answer with
      | none => trivial
      | some count =>
          cases responds
          simp only [UploadPc.next, UploadFilePc.next]
          by_cases whole : count.val = block.length
          · rw [if_pos whole]
            obtain ⟨⟨snapshot, kept, localZip⟩, taken, within, exhausted, remote, opened⟩ := sound
            refine ⟨⟨snapshot, kept, localZip⟩, taken, within, exhausted, ?_, opened⟩
            simp [remote, whole, History.recordUpload]
          · rw [if_neg whole]
            trivial
  | sftpClose result =>
      have same := World.respond_quiet responds rfl
      cases result with
      | false => trivial
      | true =>
          obtain ⟨file, ⟨snapshot, kept, localZip⟩, sent, remote⟩ := sound
          exact ⟨file, ⟨snapshot, kept, same.1.trans localZip⟩, sent, same.2.trans remote⟩
  | semPost result =>
      have same := World.respond_quiet responds rfl
      cases result with
      | false => trivial
      | true =>
          obtain ⟨file, ⟨snapshot, kept, localZip⟩, sent, remote⟩ := sound
          refine ⟨file, snapshot, kept, ?_, ?_⟩
          · simp [History.recordUpload, snapshot, sent]
          · rw [same.1, localZip]
            rfl
  | errorOpen | errorWrite => trivial

theorem upload_sound_step {history : History} {world world' : World} {pc : UploadPc}
    {answer : (pc.call remoteHost2 remote2DestPath).Answer} (sound : pc.Sound history world)
    (responds : world.respond (pc.call remoteHost2 remote2DestPath) answer = some world')
    (reads : pc.readsComplete answer = true) :
    (pc.next remoteHost2 remote2DestPath answer).Meets
      (fun pc' => pc'.Sound (history.recordUpload pc answer) world') fun _ => True := by
  cases pc with
  | session pc | sftp pc =>
      simp only [UploadPc.next]
      split <;> trivial
  | readRunning => cases answer <;> trivial
  | fileExists =>
      simp only [UploadPc.next]
      simp only [UploadPc.call, World.respond] at responds
      split at responds
      · rename_i size
        cases responds
        split
        · rename_i exists'
          rw [size, checkFileExists, World.fileSize, Option.isSome_map] at exists'
          exact exists'
        · trivial
      · cases responds
  | fileSize =>
      have same := World.respond_quiet responds rfl
      simp only [UploadPc.next]
      split
      · rw [Next.meets_goto, UploadPc.Sound, same.1]
        exact sound
      · trivial
  | upload pc => exact upload_file_sound_step sound responds reads
  | unlink => trivial
  | sleep | clearRunning | sftpFree | sshDisconnect | sshFree => trivial

theorem sound_of_same {history : History} {world world' : World} {pc : UploadPc}
    (sound : pc.Sound history world) (localZip : world'.localZip = world.localZip)
    (remoteFile : world'.remoteFile = world.remoteFile) : pc.Sound history world' := by
  obtain ⟨zipSemaphore, running, localZip', remoteFile'⟩ := world'
  simp only at localZip remoteFile
  subst localZip remoteFile
  cases pc with
  | upload pc =>
      cases pc with
      | sftpOpen stream =>
          obtain ⟨file, start, snapshot, kept, localZip⟩ := sound
          exact ⟨file, start, snapshot, kept, localZip⟩
      | ifstreamRead stream | sftpWrite stream block =>
          obtain ⟨⟨snapshot, kept, localZip⟩, taken, within, exhausted, remote, opened⟩ := sound
          exact ⟨⟨snapshot, kept, localZip⟩, taken, within, exhausted, remote, opened⟩
      | sftpClose result | semPost result =>
          cases result with
          | false => trivial
          | true =>
              obtain ⟨file, ⟨snapshot, kept, localZip⟩, sent, remote⟩ := sound
              exact ⟨file, ⟨snapshot, kept, localZip⟩, sent, remote⟩
      | _ => exact sound
  | unlink =>
      obtain ⟨file, snapshot, kept, uploads, present⟩ := sound
      exact ⟨file, snapshot, kept, uploads, present⟩
  | _ => exact sound

theorem sound_of_commit {history : History} {world : World} {pc : UploadPc} {archive : Zip}
    {written : ZipFile} (outside : pc.critical = false) (sound : pc.Sound history world) :
    pc.Sound (history.commit archive written) { world with localZip := some written } := by
  cases pc with
  | upload pc =>
      cases pc with
      | semWait => rfl
      | _ => cases outside
  | fileSize => rfl
  | unlink =>
      obtain ⟨file, snapshot, kept, uploads, present⟩ := sound
      exact ⟨file, snapshot, kept, uploads, rfl⟩
  | _ => trivial

theorem upload_local_zip {world world' : World} {pc : UploadPc}
    {answer : (pc.call remoteHost2 remote2DestPath).Answer}
    (responds : world.respond (pc.call remoteHost2 remote2DestPath) answer = some world') :
    world'.localZip = world.localZip ∨ (pc = .unlink ∧ world'.localZip = none) := by
  cases pc with
  | unlink =>
      cases answer with
      | false => cases responds; exact .inl rfl
      | true => exact .inr ⟨rfl, World.respond_unlink responds⟩
  | upload pc =>
      cases pc with
      | sftpOpen stream => cases answer <;> cases responds <;> exact .inl rfl
      | sftpWrite stream block => cases answer <;> cases responds <;> exact .inl rfl
      | _ => exact .inl (World.respond_quiet responds rfl).1
  | session pc | sftp pc => exact .inl (World.respond_quiet responds (by cases pc <;> rfl)).1
  | _ => exact .inl (World.respond_quiet responds rfl).1

theorem snapshot_recorded {history : History} {world world' : World} {pc : UploadPc}
    {answer : (pc.call remoteHost2 remote2DestPath).Answer}
    (responds : world.respond (pc.call remoteHost2 remote2DestPath) answer = some world') :
    (history.recordUpload pc answer).snapshot = history.snapshot ∨
      (pc = .upload .ifstreamOpen ∧
        (history.recordUpload pc answer).snapshot = world.localZip) := by
  unfold History.recordUpload
  split
  · have present := World.respond_ifstream_open localZipPath responds
    exact .inr ⟨rfl, present.symm⟩
  all_goals exact .inl rfl

theorem upload_entries {world world' : World} {pc : UploadPc}
    {answer : (pc.call remoteHost2 remote2DestPath).Answer}
    (responds : world.respond (pc.call remoteHost2 remote2DestPath) answer = some world') :
    world'.entries ⊆ world.entries := by
  rcases upload_local_zip responds with same | ⟨_, gone⟩
  · rw [World.entries, same]
    exact List.Subset.refl _
  · rw [World.entries, gone]
    exact List.nil_subset _

/-- What every state of a run keeps: the archive, while there is one, is as the
last `zip_close` left it, the uploader stands where the events say, and what was
delivered stands until the remote file is opened again. -/
structure Progress (history : History) (state : PipelineState libraryEnv) : Prop where
  closed : ∀ file, state.world.localZip = some file → history.lastClosed = some file
  upload : ∀ pc, state.right = some pc → pc.Sound history state.world
  standing : ∀ file, history.delivered = some file → Delivered history state.world file

theorem upload_last_closed (history : History) (pc : UploadPc)
    (answer : (pc.call remoteHost2 remote2DestPath).Answer) :
    (history.recordUpload pc answer).lastClosed = history.lastClosed := by
  unfold History.recordUpload
  split <;> rfl

theorem upload_standing {history : History} {world world' : World} {pc : UploadPc}
    {answer : (pc.call remoteHost2 remote2DestPath).Answer} (sound : pc.Sound history world)
    (standing : ∀ file, history.delivered = some file → Delivered history world file)
    (responds : world.respond (pc.call remoteHost2 remote2DestPath) answer = some world') :
    ∀ file, (history.recordUpload pc answer).delivered = some file →
      Delivered (history.recordUpload pc answer) world' file := by
  intro file delivered
  have stays : (history.recordUpload pc answer).uploads = history.uploads →
      (history.recordUpload pc answer).delivered = history.delivered →
        world'.remoteFile = world.remoteFile →
          Delivered (history.recordUpload pc answer) world' file := by
    intro uploads same remoteFile
    obtain ⟨uploaded, remote⟩ := standing file (same ▸ delivered)
    exact ⟨uploads ▸ uploaded, remoteFile.trans remote⟩
  cases pc with
  | upload pc =>
      cases pc with
      | ifstreamOpen =>
          have same := World.respond_quiet responds rfl
          cases answer <;> exact stays rfl rfl same.2
      | sftpOpen stream => cases answer <;> cases delivered
      | sftpWrite stream block =>
          -- between the opening and the end nothing is delivered
          have nothing : history.delivered = none := sound.opened
          rw [show history.delivered = some file from delivered] at nothing
          cases nothing
      | semPost result =>
          have same := World.respond_quiet responds rfl
          cases result with
          | false => exact stays rfl rfl same.2
          | true =>
              obtain ⟨uploaded, ⟨snapshot, _, _⟩, sent, remote⟩ := sound
              have this : uploaded = file := Option.some.inj (snapshot.symm.trans delivered)
              subst this
              refine ⟨?_, same.2.trans remote⟩
              simp [History.recordUpload, snapshot, sent]
      | _ => exact stays rfl rfl (World.respond_quiet responds rfl).2
  | unlink =>
      cases answer with
      | false => cases responds; exact stays rfl rfl rfl
      | true =>
          obtain rfl : world' = { world with localZip := none } := World.respond_after responds
          exact stays rfl rfl rfl
  | session pc | sftp pc =>
      exact stays rfl rfl (World.respond_quiet responds (by cases pc <;> rfl)).2
  | _ => exact stays rfl rfl (World.respond_quiet responds rfl).2

theorem progress_download_step {history : History} {pc : DownloadPc}
    {answer : (pc.call remoteHost1).Answer} {right : Option UploadPc} {world world' : World}
    (before : Progress history ⟨some pc, right, world⟩)
    (exclusive : pc.critical = true → ∀ pc', right = some pc' → pc'.critical = false)
    (responds : world.respond (pc.call remoteHost1) answer = some world') :
    Progress (history.recordDownload pc answer)
      ⟨(pc.next remoteHost1 answer).resume, right, world'⟩ := by
  obtain ⟨closed, upload, standing⟩ := before
  cases download_effect responds with
  | opens found => exact ⟨closed, upload, standing⟩
  | @commit vars file todo done archive written closes =>
      refine ⟨?_, ?_, ?_⟩
      · intro file' present
        cases present
        rfl
      · intro pc' stands
        exact sound_of_commit (exclusive rfl pc' stands) (upload pc' stands)
      · intro file' delivered
        obtain ⟨uploads, remote⟩ := standing file' delivered
        exact ⟨uploads, remote⟩
  | quiet records localZip remoteFile opened =>
      rw [records]
      refine ⟨?_, ?_, ?_⟩
      · intro file present
        exact closed file (localZip ▸ present)
      · intro pc' stands
        exact sound_of_same (upload pc' stands) localZip remoteFile
      · intro file delivered
        obtain ⟨uploads, remote⟩ := standing file delivered
        exact ⟨uploads, remoteFile.trans remote⟩

theorem progress_upload_step {history : History} {pc : UploadPc}
    {answer : (pc.call remoteHost2 remote2DestPath).Answer} {left : Option DownloadPc}
    {world world' : World} (before : Progress history ⟨left, some pc, world⟩)
    (responds : world.respond (pc.call remoteHost2 remote2DestPath) answer = some world')
    (reads : pc.readsComplete answer = true) :
    Progress (history.recordUpload pc answer)
      ⟨left, (pc.next remoteHost2 remote2DestPath answer).resume, world'⟩ := by
  obtain ⟨closed, upload, standing⟩ := before
  have sound : pc.Sound history world := upload pc rfl
  refine ⟨?_, ?_, upload_standing sound standing responds⟩
  · intro file present
    rw [upload_last_closed]
    rcases upload_local_zip responds with same | ⟨_, gone⟩
    · exact closed file (same ▸ present)
    · exact absurd (gone.symm.trans present) (by simp)
  · intro pc' stands
    exact (upload_sound_step sound responds reads).resumes stands

theorem progress {localZip : Option ZipFile} {trace : List (PipelineEvent libraryEnv)}
    {state : PipelineState libraryEnv}
    (run : PipelineRun libraryEnv ReadsComplete (Started localZip) trace state) :
    Progress (history localZip trace) state := by
  refine run.invariant (fun trace state => Progress (history localZip trace) state) ?_ ?_
  · rintro state ⟨_, atRight, _, _, present⟩
    refine ⟨?_, ?_, ?_⟩
    · intro file found
      exact present.symm.trans found
    · intro pc stands
      rw [atRight] at stands
      cases stands
      trivial
    · intro file delivered
      cases delivered
  · intro trace state event state' run before reads steps
    have total := library_semaphore_total run
    cases steps with
    | @left pc answer right world world' responds =>
        refine progress_download_step before ?_ responds
        intro inside pc' stands
        simp only [stands, held_some, inside] at total
        cases outside : pc'.critical with
        | false => rfl
        | true =>
            simp only [outside, Bool.toNat_true] at total
            omega
    | right responds => exact progress_upload_step before responds reads
    | @move move left right world world' moves =>
        cases move
        cases moves
        rw [history_move]
        obtain ⟨closed, upload, standing⟩ := before
        refine ⟨closed, fun pc stands => sound_of_same (upload pc stands) rfl rfl, ?_⟩
        intro file delivered
        obtain ⟨uploads, remote⟩ := standing file delivered
        exact ⟨uploads, remote⟩

/-- The last thing that happened is the `sem_post` with which `upload_file`
returns true. -/
def uploadReturned {env : Env Call.Answer} : List (PipelineEvent env) → Bool
  | .right (.upload (.semPost true)) _ :: _ => true
  | _ => false

theorem upload_returned {env : Env Call.Answer} {trace : List (PipelineEvent env)}
    (returned : uploadReturned trace = true) :
    ∃ older, trace = .right (.upload (.semPost true)) () :: older := by
  unfold uploadReturned at returned
  split at returned
  · exact ⟨_, rfl⟩
  · cases returned

end FileTransfer
