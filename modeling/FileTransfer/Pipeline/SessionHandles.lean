import FileTransfer.Interaction.Lifetimes
import FileTransfer.Program.Routines

/-!
# The SSH and SFTP handles of the two threads

Each function releases by hand what it has been given, in every branch. The
variables are the slots here: `session`, `privkey`, `sftp`, `file`, `dir` and
`attributes`. Reading a field of `attributes` is no call; the points after
`sftp_attributes_free` no longer hold the record.
-/

namespace FileTransfer

set_option autoImplicit false

open Interaction

inductive SshHandle where
  | session
  | key
  | sftp
  | file
  | dir
  | attributes
  deriving DecidableEq

/-- What a call does with the handles of libssh. A call on an SFTP session also
uses the session below it, and one on a file or a directory uses both. -/
def Call.sshOps : (call : Call) → call.Answer → List (HandleOp SshHandle)
  | .sshNew, true => [.create .session]
  | .sshOptionsSet _ _, _ | .sshConnect, _ | .sshDisconnect, _ => [.use .session]
  | .sshPkiImportPrivkeyBase64 _, true => [.create .key]
  | .sshUserauthPublickey, _ => [.use .session, .use .key]
  | .sshKeyFree, _ => [.release .key]
  | .sshFree, _ => [.release .session]
  | .sshGetError .session, _ => [.use .session]
  | .sshGetError .sftp, _ => [.use .session, .use .sftp]
  | .sftpNew, made =>
      if made then [.use .session, .create .sftp] else [.use .session]
  | .sftpInit, _ => [.use .session, .use .sftp]
  | .sftpFree, _ => [.use .session, .release .sftp]
  | .sftpOpendir _, opened =>
      [.use .session, .use .sftp] ++ if opened then [.create .dir] else []
  | .sftpReaddir, .entry _ =>
      [.use .session, .use .sftp, .use .dir, .create .attributes]
  | .sftpReaddir, _ => [.use .session, .use .sftp, .use .dir]
  | .sftpAttributesFree, _ => [.release .attributes]
  | .sftpClosedir, _ => [.use .session, .use .sftp, .release .dir]
  | .sftpOpen _ _, opened =>
      [.use .session, .use .sftp] ++ if opened then [.create .file] else []
  | .sftpRead _, _ | .sftpWrite _, _ => [.use .session, .use .sftp, .use .file]
  | .sftpClose, _ => [.use .session, .use .sftp, .release .file]
  | _, _ => []

def SshSessionPc.live : SshSessionPc → Finset SshHandle
  | .sshNew => ∅
  | .userauth | .errorUserauth | .keyFreeRejected | .keyFree => {.key, .session}
  | _ => {.session}

def SftpSessionPc.live : SftpSessionPc → Finset SshHandle
  | .sftpNew | .errorNew => {.session}
  | .sftpInit | .errorInit | .sftpFree => {.sftp, .session}

def ListPc.live : ListPc → Finset SshHandle
  | .sftpOpendir | .errorOpendir => {.sftp, .session}
  | .sftpReaddir _ | .sftpClosedir _ => {.dir, .sftp, .session}
  | .fileExists _ _ _ | .sftpAttributesFree _ => {.attributes, .dir, .sftp, .session}

def DownloadFilePc.live : DownloadFilePc → Finset SshHandle
  | .sftpOpen => {.sftp, .session}
  | .sftpRead _ | .sftpClose _ _ => {.file, .sftp, .session}

def UploadFilePc.live : UploadFilePc → Finset SshHandle
  | .ifstreamRead _ | .sftpWrite _ _ | .errorWrite | .sftpClose _ => {.file, .sftp, .session}
  | _ => {.sftp, .session}

def DownloadPc.live : DownloadPc → Finset SshHandle
  | .session pc => pc.live
  | .sftp pc => pc.live
  | .listing _ _ pc => pc.live
  | .download _ _ _ _ pc => pc.live
  | .sshDisconnect | .sshFree => {.session}
  | _ => {.sftp, .session}

def UploadPc.live : UploadPc → Finset SshHandle
  | .session pc => pc.live
  | .sftp pc => pc.live
  | .upload pc => pc.live
  | .sshDisconnect | .sshFree => {.session}
  | _ => {.sftp, .session}

theorem ssh_session_annotated (host : Bytes) :
    Annotates (createSshSession host) Call.sshOps SshSessionPc.live
      fun made => if made then {.session} else ∅ := by
  intro pc answer
  cases pc <;> first | rfl | (cases answer <;> rfl)

theorem sftp_session_annotated :
    Annotates createSftpSession Call.sshOps SftpSessionPc.live
      fun made => if made then {.sftp, .session} else {.session} := by
  intro pc answer
  cases pc <;> first | rfl | (cases answer <;> rfl)

theorem file_exists_no_ops (zipPath filename : Bytes) (pc : FileExistsPc)
    (answer : (pc.call zipPath filename).Answer) :
    (pc.call zipPath filename).sshOps answer = [] := by
  cases pc <;> rfl

theorem append_no_ops (fileName content zipPath password : Bytes) (pc : AppendPc)
    (answer : (pc.call fileName content zipPath password).Answer) :
    (pc.call fileName content zipPath password).sshOps answer = [] := by
  cases pc <;> rfl

theorem list_annotated (path : Bytes) (lastRun : Nat) :
    Annotates (listNewFiles path lastRun) Call.sshOps ListPc.live
      fun _ => {.sftp, .session} := by
  intro pc answer
  cases pc with
  | sftpOpendir => cases answer <;> rfl
  | errorOpendir => rfl
  | sftpReaddir newFiles =>
      cases answer with
      | entry attributes =>
          simp only [ListPc.next]
          split <;> rfl
      | eof => rfl
      | error => rfl
  | fileExists newFiles attributes pc =>
      have none := file_exists_no_ops localZipPath attributes.name pc answer
      simp only [ListPc.call, ListPc.live, none, replay]
      simp only [ListPc.next]
      cases pc.next localZipPath attributes.name answer with
      | goto pc' => rfl
      | done found => cases found <;> rfl
  | sftpAttributesFree newFiles => rfl
  | sftpClosedir newFiles => rfl

theorem download_file_annotated (remoteFile : Bytes) (fileContents : FileContents) :
    Annotates (downloadFile remoteFile fileContents) Call.sshOps DownloadFilePc.live
      fun _ => {.sftp, .session} := by
  intro pc answer
  cases pc with
  | sftpOpen => cases answer <;> rfl
  | sftpRead buffer => cases answer <;> rfl
  | sftpClose buffer complete => cases complete <;> rfl

theorem upload_file_annotated (localFile remoteFile : Bytes) :
    Annotates (uploadFile localFile remoteFile) Call.sshOps UploadFilePc.live
      fun _ => {.sftp, .session} := by
  intro pc answer
  cases pc with
  | semWait | errorOpen | errorWrite | sftpClose | semPost => rfl
  | ifstreamOpen => cases answer <;> rfl
  | sftpOpen stream => cases answer <;> rfl
  | ifstreamRead stream =>
      simp only [UploadFilePc.next]
      split <;> rfl
  | sftpWrite stream block =>
      cases answer with
      | none => rfl
      | some count =>
          simp only [UploadFilePc.next]
          split <;> rfl

theorem download_annotated (host : Bytes) :
    Annotates (downloadRoutine host) Call.sshOps DownloadPc.live fun _ => ∅ := by
  intro pc answer
  cases pc with
  | session pc =>
      have inner := ssh_session_annotated host pc answer
      simp only [DownloadPc.call, DownloadPc.live, DownloadPc.next] at inner ⊢
      rw [inner]
      cases pc.next host answer with
      | goto pc' => rfl
      | done made => cases made <;> rfl
  | sftp pc =>
      have inner := sftp_session_annotated pc answer
      simp only [DownloadPc.call, DownloadPc.live, DownloadPc.next] at inner ⊢
      rw [inner]
      cases pc.next answer with
      | goto pc' => rfl
      | done made => cases made <;> rfl
  | initialNow | now | clearRunning | sleep | sftpFree | sshDisconnect | sshFree => rfl
  | readRunning vars => cases answer <;> rfl
  | listing vars time pc =>
      have inner := list_annotated remote1CollectDir vars.lastRun pc answer
      simp only [DownloadPc.call, DownloadPc.live, DownloadPc.next] at inner ⊢
      rw [inner]
      cases pc.next remote1CollectDir vars.lastRun answer with
      | goto pc' => rfl
      | done result =>
          exact DownloadPc.listed_elim
            (motive := fun pc => some ({.sftp, .session} : Finset SshHandle) = some pc.live)
            (fun _ => rfl) (fun _ _ _ _ => rfl) _ _ _
  | fileSize vars file todo done =>
      simp only [DownloadPc.next]
      split <;> rfl
  | download vars file todo done pc =>
      have inner := download_file_annotated file vars.fileContents pc answer
      simp only [DownloadPc.call, DownloadPc.live, DownloadPc.next] at inner ⊢
      rw [inner]
      cases pc.next file vars.fileContents answer with
      | goto pc' => rfl
      | done result =>
          obtain ⟨complete, fileContents⟩ := result
          cases complete <;> rfl
  | append vars file todo done pc =>
      have none := append_no_ops vars.fileContents.1 vars.fileContents.2 localZipPath
        zipPassphrase pc answer
      simp only [DownloadPc.call, DownloadPc.live, DownloadPc.next, none, replay]
      cases pc.next vars.fileContents.1 vars.fileContents.2 localZipPath zipPassphrase answer with
      | goto pc' => rfl
      | done added =>
          cases added with
          | false => rfl
          | true =>
              exact DownloadPc.loop_elim
                (motive := fun pc => some ({.sftp, .session} : Finset SshHandle) = some pc.live)
                (fun _ => rfl) (fun _ _ _ _ => rfl) _ _ _

theorem upload_annotated (host remotePath : Bytes) :
    Annotates (uploadRoutine host remotePath) Call.sshOps UploadPc.live fun _ => ∅ := by
  intro pc answer
  cases pc with
  | session pc =>
      have inner := ssh_session_annotated host pc answer
      simp only [UploadPc.call, UploadPc.live, UploadPc.next] at inner ⊢
      rw [inner]
      cases pc.next host answer with
      | goto pc' => rfl
      | done made => cases made <;> rfl
  | sftp pc =>
      have inner := sftp_session_annotated pc answer
      simp only [UploadPc.call, UploadPc.live, UploadPc.next] at inner ⊢
      rw [inner]
      cases pc.next answer with
      | goto pc' => rfl
      | done made => cases made <;> rfl
  | readRunning => cases answer <;> rfl
  | fileExists | fileSize =>
      simp only [UploadPc.next]
      split <;> rfl
  | upload pc =>
      have inner := upload_file_annotated localZipPath remotePath pc answer
      simp only [UploadPc.call, UploadPc.live, UploadPc.next] at inner ⊢
      rw [inner]
      cases pc.next localZipPath remotePath answer with
      | goto pc' => rfl
      | done sent => cases sent <;> rfl
  | unlink | sleep | clearRunning | sftpFree | sshDisconnect | sshFree => rfl

/-- The handles of a thread: `life` is what a trace does with one of them. A
handle is only used between its creation and its release, whatever has been
called so far; at `ssh_free` everything that was created but the session itself
has been released; and nothing is left when the thread returns. -/
structure HandlesReleased (thread : Function Unit) : Prop where
  used : ∀ trace pc, thread.Reaches thread.start trace pc → ∀ handle,
    let life := historyOf handle (handleOps Call.sshOps trace)
    life = [] ∨ Held handle life ∨ Lived handle life
  sessionLast : ∀ trace pc, thread.Reaches thread.start trace pc → thread.call pc = .sshFree →
    ∀ handle, handle.1 ≠ .session →
      let life := historyOf handle (handleOps Call.sshOps trace)
      life = [] ∨ Lived handle life
  returned : ∀ trace, thread.Returns thread.start trace () → ∀ handle,
    let life := historyOf handle (handleOps Call.sshOps trace)
    life = [] ∨ Lived handle life

theorem HandlesReleased.of_annotates {thread : Function Unit}
    {live : thread.Pc → Finset SshHandle} (starts : live thread.start = ∅)
    (annotates : Annotates thread Call.sshOps live fun _ => ∅)
    (last : ∀ pc, thread.call pc = .sshFree → live pc = {.session}) :
    HandlesReleased thread where
  used := by
    intro trace pc reaches handle
    have replays := annotates.reaches reaches
    rw [starts] at replays
    exact (life_of_replay replays handle).imp_right (Or.imp_left And.left)
  sessionLast := by
    intro trace pc reaches frees handle other
    have replays := annotates.reaches reaches
    rw [starts, last pc frees] at replays
    rcases life_of_replay replays handle with never | ⟨_, there⟩ | lived
    · exact .inl never
    · exact absurd (Finset.mem_singleton.mp there) other
    · exact .inr lived
  returned := by
    intro trace returns handle
    have replays := annotates.returns returns
    rw [starts] at replays
    exact (replay_eq_empty_iff _).mp replays handle

theorem ssh_session_frees_last (host : Bytes) (pc : SshSessionPc)
    (frees : pc.call host = .sshFree) : pc.live = {.session} := by
  cases pc <;> first | rfl | cases frees

theorem download_frees_last (host : Bytes) (pc : DownloadPc)
    (frees : pc.call host = .sshFree) : pc.live = {.session} := by
  cases pc with
  | session pc => exact ssh_session_frees_last host pc frees
  | sftp pc => cases pc <;> cases frees
  | listing vars time pc =>
      cases pc with
      | fileExists newFiles attributes pc => cases pc <;> cases frees
      | _ => cases frees
  | download vars file todo done pc => cases pc <;> cases frees
  | append vars file todo done pc => cases pc <;> cases frees
  | sshFree => rfl
  | _ => cases frees

theorem upload_frees_last (host remotePath : Bytes) (pc : UploadPc)
    (frees : pc.call host remotePath = .sshFree) : pc.live = {.session} := by
  cases pc with
  | session pc => exact ssh_session_frees_last host pc frees
  | sftp pc => cases pc <;> cases frees
  | upload pc => cases pc <;> cases frees
  | sshFree => rfl
  | _ => cases frees

/-- On every path of both threads every SSH and SFTP handle is released exactly
once and not used afterwards, and the session goes last. -/
theorem handles_released_exactly_once (host remotePath : Bytes) :
    HandlesReleased (downloadRoutine host) ∧ HandlesReleased (uploadRoutine host remotePath) := by
  constructor
  · exact .of_annotates rfl (download_annotated host) (download_frees_last host)
  · exact .of_annotates rfl (upload_annotated host remotePath)
      (upload_frees_last host remotePath)

end FileTransfer
