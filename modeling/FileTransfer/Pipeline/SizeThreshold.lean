import FileTransfer.Pipeline.Smooth
import FileTransfer.Pipeline.UploadProgress

/-!
# The size threshold of the uploader

`upload_routine` checks the size of the archive before it takes the semaphore,
so an append can commit between the check and the upload.
-/

namespace FileTransfer

set_option autoImplicit false

open Interaction

/-- The archive, if there is one, is within the threshold. -/
def Small (world : World) : Prop :=
  ∀ file, world.localZip = some file → file.bytes.length ≤ maxZipSize

theorem World.respond_stat {world world' : World} (path : Bytes) {size : Option Nat}
    (responds : world.respond (.stat path) size = some world') :
    world' = world ∧ (getFileSize size ≤ maxZipSize ↔ Small world) := by
  simp only [World.respond] at responds
  split at responds
  · rename_i told
    cases responds
    subst told
    refine ⟨rfl, ?_⟩
    cases present : world.localZip with
    | none => simp [Small, World.fileSize, getFileSize, present]
    | some file => simp [Small, World.fileSize, getFileSize, present]
  · cases responds

/-- The uploader has made its checks and `upload_file` has not opened the
archive yet. -/
def UploadPc.pastCheck : UploadPc → Bool
  | .upload .semWait | .upload .ifstreamOpen => true
  | _ => false

/-- Where the uploader has made its checks, no append commits an archive over
the threshold. -/
def CommitsSmallPastCheck : PipelineCondition libraryEnv :=
  fun _ state event => match event with
    | .left (.append _ _ _ _ (.zipClose _)) (.written written) =>
        state.right.any UploadPc.pastCheck = true → written.bytes.length ≤ maxZipSize
    | _ => True

/-- What an append has added, with the archive it has committed. -/
def committed : PipelineEvent libraryEnv → Option (FileContents × ZipFile)
  | .left (.append vars _ _ _ (.zipClose _)) (.written written) =>
      some (vars.fileContents, written)
  | _ => none

theorem committed_none {event : PipelineEvent libraryEnv}
    (other : ∀ vars file todo done archive written,
      event ≠ .left (.append vars file todo done (.zipClose archive)) (.written written)) :
    committed event = none := by
  unfold committed
  split
  · exact absurd rfl (other _ _ _ _ _ _)
  · rfl

theorem commits_small_iff {trace : List (PipelineEvent libraryEnv)}
    {state : PipelineState libraryEnv} {event : PipelineEvent libraryEnv} :
    CommitsSmallPastCheck trace state event ↔ ∀ commit ∈ committed event,
      state.right.any UploadPc.pastCheck = true → commit.2.bytes.length ≤ maxZipSize := by
  unfold CommitsSmallPastCheck
  split
  · simp [committed]
  · rename_i other
    simp [committed_none other]

instance (trace : List (PipelineEvent libraryEnv)) (state : PipelineState libraryEnv)
    (event : PipelineEvent libraryEnv) : Decidable (CommitsSmallPastCheck trace state event) :=
  decidable_of_iff _ commits_small_iff.symm

theorem past_check_next {world world' : World} {pc : UploadPc}
    {answer : (pc.call remoteHost2 remote2DestPath).Answer}
    (responds : world.respond (pc.call remoteHost2 remote2DestPath) answer = some world')
    (small : pc.pastCheck = true → Small world) :
    (pc.next remoteHost2 remote2DestPath answer).Meets
      (fun pc' => pc'.pastCheck = true → Small world') fun _ => True := by
  cases pc with
  | fileSize =>
      obtain ⟨rfl, checked⟩ := World.respond_stat localZipPath responds
      simp only [UploadPc.next]
      split
      · rename_i within
        exact fun _ => checked.mp within
      · intro past
        cases past
  | upload pc =>
      cases pc with
      | semWait =>
          have same := World.respond_quiet responds rfl
          intro _ file present
          exact small rfl file (same.1 ▸ present)
      | ifstreamOpen | sftpOpen => cases answer <;> exact fun past => by cases past
      | ifstreamRead stream =>
          simp only [UploadPc.next, UploadFilePc.next]
          split <;> rename_i taken <;> split at taken <;> cases taken <;>
            exact fun past => by cases past
      | sftpWrite stream block =>
          cases answer with
          | none => exact fun past => by cases past
          | some count =>
              simp only [UploadPc.next, UploadFilePc.next]
              split <;> rename_i taken <;> split at taken <;> cases taken <;>
                exact fun past => by cases past
      | semPost result => cases result <;> exact fun past => by cases past
      | _ => exact fun past => by cases past
  | session pc | sftp pc =>
      simp only [UploadPc.next]
      split <;> first | trivial | exact fun past => by cases past
  | readRunning => cases answer <;> exact fun past => by cases past
  | fileExists =>
      simp only [UploadPc.next]
      split <;> exact fun past => by cases past
  | sshFree => trivial
  | _ => exact fun past => by cases past

structure WithinThreshold (history : History) (state : PipelineState libraryEnv) : Prop where
  checked : ∀ pc, state.right = some pc → pc.pastCheck = true → Small state.world
  snapshot : ∀ file, history.snapshot = some file → file.bytes.length ≤ maxZipSize

theorem within_threshold {localZip : Option ZipFile}
    {trace : List (PipelineEvent libraryEnv)} {state : PipelineState libraryEnv}
    (run : PipelineRun libraryEnv CommitsSmallPastCheck (Started localZip) trace state) :
    WithinThreshold (history localZip trace) state := by
  refine run.invariant (fun trace state => WithinThreshold (history localZip trace) state) ?_ ?_
  · rintro state ⟨_, atRight, _, _, _⟩
    refine ⟨?_, ?_⟩
    · intro pc stands past
      rw [atRight] at stands
      cases stands
      cases past
    · intro file opened
      cases opened
  · intro trace state event state' _ before commits steps
    obtain ⟨checked, snapshot⟩ := before
    cases steps with
    | @left pc answer right world world' responds =>
        cases download_effect responds with
        | opens found => exact ⟨checked, snapshot⟩
        | @commit vars file todo done archive written closes =>
            refine ⟨?_, snapshot⟩
            intro pc' stands past file' present
            cases present
            exact commits (by rw [stands]; exact past)
        | quiet records same remoteFile opened =>
            rw [history_left, records]
            refine ⟨?_, snapshot⟩
            intro pc' stands past file present
            exact checked pc' stands past file (same ▸ present)
    | @right pc answer left world world' responds =>
        refine ⟨?_, ?_⟩
        · intro pc' stands
          exact (past_check_next responds (checked pc rfl)).resumes stands
        · intro file opened
          rw [history_right] at opened
          rcases snapshot_recorded responds with same | ⟨rfl, now⟩
          · exact snapshot file (same ▸ opened)
          · exact checked _ rfl rfl file (now ▸ opened)
    | @move move left right world world' moves =>
        cases move
        cases moves
        exact ⟨checked, snapshot⟩

def smallArchive : ZipFile :=
  ⟨[⟨ascii "a", ascii "text", .aes256 zipPassphrase⟩], ascii "atext"⟩

def largeArchive (content : Bytes) : ZipFile :=
  ⟨smallArchive.entries ++ [⟨ascii "b", content, .aes256 zipPassphrase⟩],
    smallArchive.bytes ++ ascii "b" ++ content⟩

theorem large_archive_length (content : Bytes) :
    (largeArchive content).bytes.length = content.length + 6 := by
  have small : smallArchive.bytes.length = 5 := by decide
  have name : (ascii "b").length = 1 := by decide
  simp only [largeArchive, List.length_append, small, name]
  omega

def largePath : Bytes := remote1CollectDir ++ ascii "b"

/-- The variables once the small file has been appended and the large one
listed, and once that has been appended too. -/
def listedVars : DownloadVars := ⟨[largePath], (ascii "a", ascii "text"), 2⟩

def appendedVars (content : Bytes) : DownloadVars := ⟨[], (ascii "b", content), 2⟩

abbrev CanReach := Reaches downloadThread uploadThread libraryEnv (anyStep _ _ _)

theorem large_blocks_read (block : Bytes) (fits : block ≠ [] ∧ block.length ≤ 1024)
    (right : Option UploadPc) (world : World) (count : Nat) (buffer : Bytes)
    (trace : List (PipelineEvent libraryEnv)) :
    CanReach trace
      ⟨some (.download listedVars largePath [] [] (.sftpRead buffer)), right, world⟩
      ⟨some (.download listedVars largePath [] []
        (.sftpRead (buffer ++ (List.replicate count block).flatten))), right, world⟩ := by
  induction count generalizing trace buffer with
  | zero =>
      rw [List.replicate_zero, List.flatten_nil, List.append_nil]
      exact .refl _ _
  | succ count ih =>
      refine .left (.data ⟨block, fits⟩) world rfl trivial ?_
      have rest := ih (buffer ++ block) (.left (.download listedVars largePath [] []
        (.sftpRead buffer)) (.data ⟨block, fits⟩) :: trace)
      rw [List.append_assoc, ← List.flatten_cons, ← List.replicate_succ] at rest
      exact rest

theorem large_closes (content : Bytes) :
    Zip.closes ⟨[.original ⟨ascii "a", ascii "text", .aes256 zipPassphrase⟩ none,
      .added (ascii "b") (.buffer content) (some (.aes256 zipPassphrase))]⟩ noFiles
      (.written (largeArchive content)) = true := by
  simp [Zip.closes, Zip.changed, ZipEntry.hasChanges, Zip.write, ZipEntry.write, largeArchive,
    smallArchive]

theorem large_append (content : Bytes) (right : Option UploadPc)
    (trace : List (PipelineEvent libraryEnv)) :
    CanReach trace
      ⟨some (.download listedVars largePath [] [] (.sftpRead content)),
        right, ⟨1, true, some smallArchive, none, []⟩⟩
      ⟨some (.sleep (appendedVars content)), right,
        ⟨1, true, some (largeArchive content), none, []⟩⟩ := by
  refine .left .eof _ rfl trivial ?_
  refine .left true _ rfl trivial ?_
  refine .left () _ rfl trivial ?_
  refine .left (some smallArchive.entries) _ rfl trivial ?_
  refine .left true _ rfl trivial ?_
  refine .left true _ rfl trivial ?_
  refine .left true _ rfl trivial ?_
  refine .left true _ rfl trivial ?_
  refine .left (.written (largeArchive content)) ⟨0, true, some (largeArchive content), none, []⟩
    ?_ trivial ?_
  · exact if_pos (large_closes content)
  · refine .left () _ rfl trivial ?_
    exact .refl _ _

theorem large_archive_opened (content : Bytes) (trace : List (PipelineEvent libraryEnv)) :
    CanReach trace
      ⟨some (.download listedVars largePath [] [] (.sftpRead content)),
        some (.upload .semWait), ⟨1, true, some smallArchive, none, []⟩⟩
      ⟨some (.sleep (appendedVars content)), some (.upload .ifstreamOpen),
        ⟨0, true, some (largeArchive content), none, []⟩⟩ :=
  (large_append content _ trace).trans fun _ => .right () _ rfl trivial (.refl _ _)

theorem large_snapshot {content : Bytes} {trace : List (PipelineEvent libraryEnv)}
    (run : PipelineRun libraryEnv (anyStep _ _ _) (Started none) trace
      ⟨some (.sleep (appendedVars content)), some (.upload .ifstreamOpen),
        ⟨0, true, some (largeArchive content), none, []⟩⟩) :
    ∃ trace' state', PipelineRun libraryEnv (anyStep _ _ _) (Started none) trace' state' ∧
      (history none trace').snapshot = some (largeArchive content) := by
  have opens : libraryEnv.respond ⟨0, true, some (largeArchive content), none, []⟩
      (uploadThread.call (.upload .ifstreamOpen)) (some (largeArchive content)) =
        some ⟨0, true, some (largeArchive content), none, []⟩ := if_pos rfl
  exact ⟨_, _, .step run trivial (.right opens), rfl⟩

/-- The uploader has made its checks on the small archive when the large file
is opened. -/
def checkedState (right : UploadPc) : PipelineState libraryEnv :=
  ⟨some (.download listedVars largePath [] [] (.sftpRead [])), some right,
    ⟨1, true, some smallArchive, none, []⟩⟩

/-- The small file is appended, the uploader makes `count` calls, and the large
file is listed and opened. -/
def smallThenLarge (count : Nat) : List (Cue libraryEnv) :=
  bothSetUp plainLayout ++ fetches plainLayout (ascii "a") [ascii "text"] 1 1 1 ++
    appends plainLayout ++ uploadSmoothly plainLayout count ++
    downloadSmoothly plainLayout 2 ++ [tellsTime 2] ++ downloadSmoothly plainLayout 1 ++
    [lists (ascii "b") 2] ++ downloadSmoothly plainLayout 8

theorem small_then_large_run (right : UploadPc) (count : Nat)
    (plays : (play (fun _ _ _ => true) (smallThenLarge count) [] (startState none)).any
      (fun ended => decide (ended.2 = checkedState right)) = true) :
    ∃ trace, PipelineRun libraryEnv (anyStep _ _ _) (Started none) trace
      (checkedState right) := by
  have found : ∃ trace state,
      PipelineRun libraryEnv (anyStep _ _ _) (Started none) trace state ∧
        decide (state = checkedState right) = true :=
    exists_run_of_play (fun _ _ _ => true) (smallThenLarge count) (startState none) _
      (fun _ _ _ _ => trivial) (start_state_started none) plays
  obtain ⟨trace, state, run, outcome⟩ := found
  exact ⟨trace, of_decide_eq_true outcome ▸ run⟩

def largeContent : Bytes := (List.replicate 6 (List.replicate 1000 0)).flatten

theorem large_content_length : largeContent.length = 6000 := by
  simp only [largeContent, List.length_flatten, List.map_replicate, List.length_replicate]
  decide

theorem large_content_read (right : Option UploadPc) (world : World)
    (trace : List (PipelineEvent libraryEnv)) :
    CanReach trace
      ⟨some (.download listedVars largePath [] [] (.sftpRead [])), right, world⟩
      ⟨some (.download listedVars largePath [] [] (.sftpRead largeContent)), right, world⟩ := by
  have fits : List.replicate 1000 (0 : UInt8) ≠ [] ∧
      (List.replicate 1000 (0 : UInt8)).length ≤ 1024 := by
    rw [List.length_replicate]
    exact ⟨List.ne_nil_of_length_pos (by rw [List.length_replicate]; decide), by decide⟩
  have read := large_blocks_read _ fits right world 6 [] trace
  rw [List.nil_append] at read
  exact read

end FileTransfer
