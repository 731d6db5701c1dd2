import FileTransfer.Interaction.Semaphore
import FileTransfer.Program.Routines

/-!
# The two threads and what they share

`main` starts `download_routine` and `upload_routine` over one semaphore, one
flag and one archive path; the uploader also writes one file on the second
host. The libraries behave as documented: `zip_close` replaces the archive by a
rename, a stream or handle keeps the file it was opened on, and `stat` tells the
truth. Everything a server answers, and whether a call fails, is left open.
-/

namespace FileTransfer

set_option autoImplicit false

open Interaction

/-- `localZip` is the file at `LOCAL_ZIP_PATH`, the only local path the threads
name (`download_local_paths`, `upload_local_paths`); `remoteFile` is the file
at `remote_path` on the second host. A call on that file fails also when the
server has carried it out and the reply is lost or cannot be read: `unanswered`
tells for each call that is yet to fail how much of it is carried out. -/
structure World where
  zipSemaphore : Nat
  running : Bool
  localZip : Option ZipFile
  remoteFile : Option Bytes
  unanswered : List Nat
  deriving DecidableEq

def World.entries (world : World) : List Entry :=
  world.localZip.elim [] (·.entries)

theorem World.entries_congr {now world : World} (same : now.localZip = world.localZip) :
    now.entries = world.entries := by
  rw [World.entries, same, World.entries]

def World.fileSize (world : World) : Option Nat := world.localZip.map (·.bytes.length)

/-- The threads hand `zip_close` buffers only. -/
def noFiles : Bytes → Option Bytes := fun _ => none

/-- Whether `zip_open` can find these entries. -/
def World.opens (world : World) (create : Bool) (opened : List Entry) : Bool :=
  match world.localZip with
  | some file => opened = file.entries
  | none => create && opened.isEmpty

/-- `O_CREAT | O_TRUNC` without an answer. -/
def World.openUnanswered (world : World) : World :=
  { world with
    remoteFile := if world.unanswered.headD 0 = 0 then world.remoteFile else some []
    unanswered := world.unanswered.tail }

/-- A write without an answer: some first part of the block may be there. -/
def World.writeUnanswered (world : World) (block : Bytes) : World :=
  { world with
    remoteFile := world.remoteFile.map (· ++ block.take (world.unanswered.headD 0))
    unanswered := world.unanswered.tail }

def World.respond (world : World) : (call : Call) → call.Answer → Option World
  | .semWait, _ =>
      if 0 < world.zipSemaphore then
        some { world with zipSemaphore := world.zipSemaphore - 1 }
      else none
  | .semPost, _ => some { world with zipSemaphore := world.zipSemaphore + 1 }
  | .readRunning, running => if running = world.running then some world else none
  | .clearRunning, _ => some { world with running := false }
  | .zipOpen _ create, some opened => if world.opens create opened then some world else none
  | .zipClose archive, .written file =>
      if archive.closes noFiles (.written file) then
        some { world with localZip := some file }
      else none
  | .zipClose archive, .discarded =>
      if archive.closes noFiles .discarded then some world else none
  | .zipClose archive, .failed =>
      if archive.closes noFiles .failed then some world else none
  | .stat _, size => if size = world.fileSize then some world else none
  | .unlink _, true =>
      if world.localZip.isSome then some { world with localZip := none } else none
  | .ifstreamOpen _, some file => if world.localZip = some file then some world else none
  | .sftpOpen _ .truncate, true => some { world with remoteFile := some [] }
  | .sftpOpen _ .truncate, false => some world.openUnanswered
  | .sftpWrite block, some count =>
      some { world with remoteFile := world.remoteFile.map (· ++ block.take count.val) }
  | .sftpWrite block, none => some (world.writeUnanswered block)
  | _, _ => some world

/-- What a call so answered leaves behind, where it can be answered so. -/
def World.after (world : World) : (call : Call) → call.Answer → World
  | .semWait, _ => { world with zipSemaphore := world.zipSemaphore - 1 }
  | .semPost, _ => { world with zipSemaphore := world.zipSemaphore + 1 }
  | .clearRunning, _ => { world with running := false }
  | .zipClose _, .written file => { world with localZip := some file }
  | .unlink _, true => { world with localZip := none }
  | .sftpOpen _ .truncate, true => { world with remoteFile := some [] }
  | .sftpOpen _ .truncate, false => world.openUnanswered
  | .sftpWrite block, some count =>
      { world with remoteFile := world.remoteFile.map (· ++ block.take count.val) }
  | .sftpWrite block, none => world.writeUnanswered block
  | _, _ => world

theorem World.respond_after {world world' : World} {call : Call} {answer : call.Answer}
    (responds : world.respond call answer = some world') : world' = world.after call answer := by
  cases call
  case semWait | readRunning | stat =>
    simp only [World.respond] at responds
    split at responds <;> cases responds
    rfl
  case zipOpen | ifstreamOpen =>
    cases answer with
    | none =>
        cases responds
        rfl
    | some found =>
        simp only [World.respond] at responds
        split at responds <;> cases responds
        rfl
  case unlink =>
    cases answer with
    | false =>
        cases responds
        rfl
    | true =>
        simp only [World.respond] at responds
        split at responds <;> cases responds
        rfl
  case zipClose =>
    cases answer <;>
      · simp only [World.respond] at responds
        split at responds <;> cases responds
        rfl
  case sftpOpen path mode => cases mode <;> cases answer <;> cases responds <;> rfl
  case sftpWrite => cases answer <;> cases responds <;> rfl
  all_goals
    cases responds
    rfl

inductive Interrupt where
  | sigint
  deriving DecidableEq

def World.interrupt (world : World) : Interrupt → Option World
  | .sigint => some { world with running := false }

abbrev libraryEnv : Env Call.Answer where
  World := World
  Move := Interrupt
  respond := World.respond
  move := World.interrupt

abbrev downloadThread : Function Unit := downloadRoutine remoteHost1
abbrev uploadThread : Function Unit := uploadRoutine remoteHost2 remote2DestPath

abbrev PipelineState (env : Env Call.Answer) := State downloadThread uploadThread env
abbrev PipelineEvent (env : Env Call.Answer) := Event downloadThread uploadThread env
abbrev PipelineCondition (env : Env Call.Answer) := StepCondition downloadThread uploadThread env
abbrev PipelineRun (env : Env Call.Answer) := Run downloadThread uploadThread env

/-- The state in which `main` starts the threads: `sem_init` has set the
semaphore to 1 and `running` is true. -/
def Started (localZip : Option ZipFile) (state : PipelineState libraryEnv) : Prop :=
  state.left = some downloadThread.start ∧ state.right = some uploadThread.start ∧
    state.world.zipSemaphore = 1 ∧ state.world.running = true ∧
      state.world.localZip = localZip

def Call.localPath : Call → Option Bytes
  | .zipOpen path _ | .stat path | .unlink path | .ifstreamOpen path | .ofstreamOpen path
  | .zipSourceFile path => some path
  | _ => none

theorem download_local_paths (host : Bytes) (pc : DownloadPc) (path : Bytes)
    (names : (pc.call host).localPath = some path) : path = localZipPath := by
  cases pc with
  | session pc => cases pc <;> simp [DownloadPc.call, SshSessionPc.call, Call.localPath] at names
  | sftp pc => cases pc <;> simp [DownloadPc.call, SftpSessionPc.call, Call.localPath] at names
  | listing vars time pc =>
      cases pc with
      | fileExists newFiles attributes pc =>
          cases pc <;> simp_all [DownloadPc.call, ListPc.call, FileExistsPc.call, Call.localPath]
      | _ => simp [DownloadPc.call, ListPc.call, Call.localPath] at names
  | download vars file todo done pc =>
      cases pc <;> simp [DownloadPc.call, DownloadFilePc.call, Call.localPath] at names
  | append vars file todo done pc =>
      cases pc <;> simp_all [DownloadPc.call, AppendPc.call, Call.localPath]
  | _ => simp_all [DownloadPc.call, Call.localPath]

theorem upload_local_paths (host remotePath : Bytes) (pc : UploadPc) (path : Bytes)
    (names : (pc.call host remotePath).localPath = some path) : path = localZipPath := by
  cases pc with
  | session pc => cases pc <;> simp [UploadPc.call, SshSessionPc.call, Call.localPath] at names
  | sftp pc => cases pc <;> simp [UploadPc.call, SftpSessionPc.call, Call.localPath] at names
  | upload pc => cases pc <;> simp_all [UploadPc.call, UploadFilePc.call, Call.localPath]
  | _ => simp_all [UploadPc.call, Call.localPath]

end FileTransfer
