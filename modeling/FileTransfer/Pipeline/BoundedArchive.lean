import FileTransfer.Pipeline.LargeArchive

/-!
# The local archive stays bounded

The size is checked before the download, outside the semaphore; the append
comes later. In between the archive can only be removed, so that one entry is
the most by which it passes the threshold.
-/

namespace FileTransfer

set_option autoImplicit false

open Interaction

/-- The local archive as the calls so far leave it, the one the last
`append_to_zip` was opened on, and the name and content last written. -/
structure Growth where
  archive : Option ZipFile
  opened : Option ZipFile
  added : Option FileContents

def Growth.recordDownload (growth : Growth) :
    (pc : DownloadPc) → (pc.call remoteHost1).Answer → Growth
  | .append _ _ _ _ .zipOpen, some _ => { growth with opened := growth.archive }
  | .append vars _ _ _ (.zipClose _), .written file =>
      { growth with archive := some file, added := some vars.fileContents }
  | _, _ => growth

def Growth.recordUpload (growth : Growth) :
    (pc : UploadPc) → (pc.call remoteHost2 remote2DestPath).Answer → Growth
  | .unlink, true => { growth with archive := none }
  | _, _ => growth

def Growth.record (growth : Growth) : PipelineEvent libraryEnv → Growth
  | .left pc answer => growth.recordDownload pc answer
  | .right pc answer => growth.recordUpload pc answer
  | .move _ => growth

def growth (localZip : Option ZipFile) (trace : List (PipelineEvent libraryEnv)) : Growth :=
  trace.foldr (fun event growth => growth.record event) ⟨localZip, none, none⟩

def fileLength (file : Option ZipFile) : Nat := file.elim 0 (·.bytes.length)

/-- `enlarges name content` bounds by how much an append of an entry with this
name and content enlarges the archive it has opened. -/
def EnlargesWithin (enlarges : Bytes → Bytes → Nat) (localZip : Option ZipFile) :
    PipelineCondition libraryEnv :=
  fun trace _ event => match event with
    | .left (.append vars _ _ _ (.zipClose _)) (.written written) =>
        written.bytes.length ≤ fileLength (growth localZip trace).opened +
          enlarges vars.fileContents.1 vars.fileContents.2
    | _ => True

theorem enlarges_within_iff {enlarges : Bytes → Bytes → Nat} {localZip : Option ZipFile}
    {trace : List (PipelineEvent libraryEnv)} {state : PipelineState libraryEnv}
    {event : PipelineEvent libraryEnv} :
    EnlargesWithin enlarges localZip trace state event ↔ ∀ commit ∈ committed event,
      commit.2.bytes.length ≤ fileLength (growth localZip trace).opened +
        enlarges commit.1.1 commit.1.2 := by
  unfold EnlargesWithin
  split
  · simp [committed]
  · rename_i other
    simp [committed_none other]

instance (enlarges : Bytes → Bytes → Nat) (localZip : Option ZipFile)
    (trace : List (PipelineEvent libraryEnv)) (state : PipelineState libraryEnv)
    (event : PipelineEvent libraryEnv) :
    Decidable (EnlargesWithin enlarges localZip trace state event) :=
  decidable_of_iff _ enlarges_within_iff.symm

/-- Past the threshold by one entry at most; untouched as long as none has been
added. -/
def Growth.Within (enlarges : Bytes → Bytes → Nat) (localZip : Option ZipFile)
    (growth : Growth) (file : ZipFile) : Prop :=
  match growth.added with
  | none => localZip = some file
  | some (name, content) => file.bytes.length ≤ maxZipSize + enlarges name content

structure Bounded (enlarges : Bytes → Bytes → Nat) (localZip : Option ZipFile)
    (growth : Growth) (world : World) : Prop where
  archive : growth.archive = world.localZip
  opened : fileLength growth.opened ≤ maxZipSize
  within : ∀ file, world.localZip = some file → growth.Within enlarges localZip file

section

variable {enlarges : Bytes → Bytes → Nat} {localZip : Option ZipFile} {growth : Growth}
  {world world' : World}

theorem Small.file_length (small : Small world) : fileLength world.localZip ≤ maxZipSize := by
  cases present : world.localZip with
  | none => exact Nat.zero_le _
  | some file => exact small file present

theorem Bounded.same (bounded : Bounded enlarges localZip growth world)
    (same : world'.localZip = world.localZip) : Bounded enlarges localZip growth world' := by
  obtain ⟨archive, opened, within⟩ := bounded
  exact ⟨archive.trans same.symm, opened, fun file present => within file (same ▸ present)⟩

theorem growth_quiet (growth : Growth) {pc : DownloadPc} {answer : (pc.call remoteHost1).Answer}
    (records : ∀ history : History, history.recordDownload pc answer = history) :
    growth.recordDownload pc answer = growth ∨
      (pc.pastSizeCheck = true ∧
        growth.recordDownload pc answer = { growth with opened := growth.archive }) := by
  unfold Growth.recordDownload
  split
  · exact .inr ⟨rfl, rfl⟩
  · rename_i vars file todo done archive written
    have unwritten := congrArg History.lastClosed (records (.start none))
    cases unwritten
  · exact .inl rfl

theorem growth_upload (growth : Growth) {pc : UploadPc}
    {answer : (pc.call remoteHost2 remote2DestPath).Answer}
    (responds : world.respond (pc.call remoteHost2 remote2DestPath) answer = some world') :
    (growth.recordUpload pc answer = growth ∧ world'.localZip = world.localZip) ∨
      (growth.recordUpload pc answer = { growth with archive := none } ∧
        world'.localZip = none) := by
  by_cases removes : pc = .unlink
  · subst removes
    cases answer with
    | false =>
        cases responds
        exact .inl ⟨rfl, rfl⟩
    | true => exact .inr ⟨rfl, World.respond_unlink responds⟩
  · have same : world'.localZip = world.localZip :=
      (upload_local_zip responds).resolve_right fun gone => removes gone.1
    refine .inl ⟨?_, same⟩
    unfold Growth.recordUpload
    split
    · exact absurd rfl removes
    · rfl

theorem bounded_download_step {trace : List (PipelineEvent libraryEnv)}
    {state : PipelineState libraryEnv} {pc : DownloadPc} {answer : (pc.call remoteHost1).Answer}
    (bounded : Bounded enlarges localZip (FileTransfer.growth localZip trace) world)
    (enlarged : EnlargesWithin enlarges localZip trace state (.left pc answer))
    (small : pc.pastSizeCheck = true → Small world)
    (responds : world.respond (pc.call remoteHost1) answer = some world') :
    Bounded enlarges localZip ((FileTransfer.growth localZip trace).recordDownload pc answer)
      world' := by
  obtain ⟨archive, opened, within⟩ := bounded
  cases download_effect responds with
  | opens found =>
      refine ⟨archive, ?_, within⟩
      change fileLength (FileTransfer.growth localZip trace).archive ≤ maxZipSize
      rw [archive]
      exact (small rfl).file_length
  | @commit vars file todo done handle written closes =>
      refine ⟨rfl, opened, ?_⟩
      intro file present
      cases present
      have bound : written.bytes.length ≤ fileLength (FileTransfer.growth localZip trace).opened +
          enlarges vars.fileContents.1 vars.fileContents.2 := enlarged
      exact bound.trans (Nat.add_le_add_right opened _)
  | quiet records same remoteFile handles =>
      rcases growth_quiet (FileTransfer.growth localZip trace) records with kept | ⟨past, opens⟩
      · rw [kept]
        exact Bounded.same ⟨archive, opened, within⟩ same
      · rw [opens]
        refine Bounded.same ⟨archive, ?_, within⟩ same
        rw [archive]
        exact (small past).file_length

end

theorem bounded {enlarges : Bytes → Bytes → Nat} {localZip : Option ZipFile}
    {trace : List (PipelineEvent libraryEnv)} {state : PipelineState libraryEnv}
    (run : PipelineRun libraryEnv (EnlargesWithin enlarges localZip) (Started localZip)
      trace state) :
    Bounded enlarges localZip (growth localZip trace) state.world := by
  apply run.invariant
    (fun trace state => Bounded enlarges localZip (growth localZip trace) state.world)
  · rintro state ⟨_, _, _, _, rfl⟩
    exact ⟨rfl, Nat.zero_le _, fun file present => present⟩
  · intro trace state event state' earlier before enlarged steps
    cases steps with
    | @left pc answer right world world' responds =>
        exact bounded_download_step before enlarged (downloading_small earlier pc rfl) responds
    | @right pc answer left world world' responds =>
        change Bounded _ _ ((growth localZip trace).recordUpload pc answer) world'
        rcases growth_upload (growth localZip trace) responds with ⟨kept, same⟩ | ⟨removed, gone⟩
        · rw [kept]
          exact before.same same
        · rw [removed]
          refine ⟨gone.symm, before.opened, ?_⟩
          intro file present
          exact absurd (gone.symm.trans present) (by simp)
    | @move move left right world world' moves =>
        cases move
        cases moves
        exact before.same rfl

end FileTransfer
