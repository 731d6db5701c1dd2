import FileTransfer.Archive.Commit
import FileTransfer.Pipeline.World

/-!
# What the events of a run have done

The history is read off the events alone: what has been committed to the local
archive, which file an upload has opened and what it has sent. The effect of
one call of the downloader on the shared state is stated once, so that an
invariant has three cases to look at and not one for every point.
-/

namespace FileTransfer

set_option autoImplicit false

open Interaction

/-- `committed` and `sinceSnapshot` list what appends added to the archive, the
latter since `upload_file` last opened it; `removed` tells whether the archive
has been unlinked since. `sent` is what has been passed to `sftp_write` since
the remote file was last opened. `uploads` pairs the file each successful
`upload_file` had opened with what it sent, newest first; `collected` are the
uploaded files after which the archive was unlinked, oldest first. `delivered`
is the file of the last successful upload, as long as `upload_file` has not
come to `sftp_open` again. -/
structure History where
  lastClosed : Option ZipFile
  committed : List (Bytes × Bytes)
  sinceSnapshot : List (Bytes × Bytes)
  snapshot : Option ZipFile
  sent : Bytes
  uploads : List (ZipFile × Bytes)
  removed : Bool
  collected : List ZipFile
  delivered : Option ZipFile

namespace History

def start (localZip : Option ZipFile) : History where
  lastClosed := localZip
  committed := []
  sinceSnapshot := []
  snapshot := none
  sent := []
  uploads := []
  removed := false
  collected := []
  delivered := none

def commit (history : History) (archive : Zip) (file : ZipFile) : History :=
  { history with
    lastClosed := some file
    committed := history.committed ++ archive.buffered
    sinceSnapshot := history.sinceSnapshot ++ archive.buffered }

def recordDownload (history : History) :
    (pc : DownloadPc) → (pc.call remoteHost1).Answer → History
  | .append _ _ _ _ (.zipClose archive), .written file => history.commit archive file
  | _, _ => history

def recordUpload (history : History) :
    (pc : UploadPc) → (pc.call remoteHost2 remote2DestPath).Answer → History
  | .upload .ifstreamOpen, some file =>
      { history with snapshot := some file, sinceSnapshot := [], removed := false }
  | .upload (.sftpOpen _), true => { history with sent := [], delivered := none }
  | .upload (.sftpOpen _), false => { history with delivered := none }
  | .upload (.sftpWrite _ block), _ => { history with sent := history.sent ++ block }
  | .upload (.semPost true), _ =>
      { history with
        uploads := history.snapshot.toList.map (·, history.sent) ++ history.uploads
        delivered := history.snapshot }
  | .unlink, true =>
      { history with
        removed := true
        collected := history.collected ++ history.snapshot.toList }
  | _, _ => history

def record {env : Env Call.Answer} (history : History) : PipelineEvent env → History
  | .left pc answer => history.recordDownload pc answer
  | .right pc answer => history.recordUpload pc answer
  | .move _ => history

end History

def history {env : Env Call.Answer} (localZip : Option ZipFile)
    (trace : List (PipelineEvent env)) : History :=
  trace.foldr (fun event history => history.record event) (.start localZip)

section

variable {env : Env Call.Answer} (localZip : Option ZipFile) (trace : List (PipelineEvent env))

@[simp] theorem history_nil :
    history localZip ([] : List (PipelineEvent env)) = .start localZip := rfl

@[simp] theorem history_left (pc : DownloadPc) (answer : (pc.call remoteHost1).Answer) :
    history localZip (.left pc answer :: trace) =
      (history localZip trace).recordDownload pc answer := rfl

@[simp] theorem history_right (pc : UploadPc)
    (answer : (pc.call remoteHost2 remote2DestPath).Answer) :
    history localZip (.right pc answer :: trace) =
      (history localZip trace).recordUpload pc answer := rfl

@[simp] theorem history_move (move : env.Move) :
    history localZip (.move move :: trace) = history localZip trace := rfl

end

/-- The handle held at a point is one that the calls so far can have made. -/
def AppendPc.Sound (fileName content password : Bytes) : AppendPc → Prop
  | .zipNameLocate archive => ∃ opened, Zip.Added opened fileName content archive
  | .zipFileSetEncryption archive index =>
      ∃ opened, Zip.Added opened fileName content archive ∧
        (index = none ∨ index = archive.nameLocate fileName .utf8)
  | .zipClose archive | .strerrorClose archive =>
      ∃ opened, Zip.Appended opened fileName content password archive
  | _ => True

def DownloadPc.Sound : DownloadPc → Prop
  | .append vars _ _ _ pc =>
      pc.Sound vars.fileContents.1 vars.fileContents.2 zipPassphrase
  | _ => True

theorem append_keeps (fileName content zipPath password : Bytes) :
    (appendToZip fileName content zipPath password).Keeps
      (AppendPc.Sound fileName content password) where
  start := trivial
  next := by
    intro pc answer sound
    cases pc with
    | zipOpen | zipSourceBuffer => cases answer <;> trivial
    | zipFileAdd opened => exact ⟨opened, Zip.file_add_added opened fileName content answer⟩
    | zipNameLocate archive =>
        obtain ⟨opened, adds⟩ := sound
        cases answer with
        | false => exact ⟨opened, adds, .inl rfl⟩
        | true => exact ⟨opened, adds, .inr rfl⟩
    | zipFileSetEncryption archive index =>
        obtain ⟨opened, adds, located⟩ := sound
        exact ⟨opened, .set adds located answer⟩
    | zipClose archive =>
        cases answer with
        | failed => exact sound
        | _ => trivial
    | _ => trivial

@[simp] theorem loop_sound (vars : DownloadVars) (done todo : List Bytes) :
    (DownloadPc.loop vars done todo).Sound := by
  cases todo <;> trivial

@[simp] theorem listed_sound (vars : DownloadVars) (time : Nat)
    (newFiles : Option (List Bytes)) : (DownloadPc.listed vars time newFiles).Sound :=
  DownloadPc.listed_elim (motive := DownloadPc.Sound)
    (fun _ => trivial) (fun _ _ _ _ => trivial) vars time newFiles

theorem download_keeps : downloadThread.Keeps DownloadPc.Sound where
  start := trivial
  next := by
    intro (pc : DownloadPc) answer sound
    cases pc with
    | append vars file todo done pc =>
        have kept := (append_keeps vars.fileContents.1 vars.fileContents.2 localZipPath
          zipPassphrase).next pc answer sound
        simp only [DownloadPc.next]
        split
        · rename_i next
          exact kept.goes next
        · exact loop_sound _ _ _
        · trivial
    | listing vars time pc =>
        simp only [DownloadPc.next]
        split
        · trivial
        · exact listed_sound _ _ _
    | readRunning vars => cases answer <;> trivial
    | session pc | sftp pc | fileSize vars file todo done | download vars file todo done pc =>
        simp only [DownloadPc.next]
        split <;> trivial
    | _ => trivial

def AppendPc.opened : AppendPc → List Entry
  | .zipSourceBuffer opened | .strerrorSource opened | .zipCloseSource opened
  | .zipFileAdd opened => opened
  | .zipNameLocate archive | .zipFileSetEncryption archive _ | .zipClose archive
  | .strerrorClose archive => archive.originals
  | _ => []

def DownloadPc.opened : DownloadPc → List Entry
  | .append _ _ _ _ pc => pc.opened
  | _ => []

inductive DownloadEffect (world : World) :
    (pc : DownloadPc) → (pc.call remoteHost1).Answer → World → Prop where
  | opens {vars : DownloadVars} {file : Bytes} {todo done : List Bytes} {opened : List Entry}
      (found : world.opens true opened = true) :
      DownloadEffect world (.append vars file todo done .zipOpen) (some opened) world
  | commit {vars : DownloadVars} {file : Bytes} {todo done : List Bytes} {archive : Zip}
      {written : ZipFile} (closes : archive.closes noFiles (.written written) = true) :
      DownloadEffect world (.append vars file todo done (.zipClose archive)) (.written written)
        { world with localZip := some written }
  | quiet {pc : DownloadPc} {answer : (pc.call remoteHost1).Answer} {world' : World}
      (records : ∀ history : History, history.recordDownload pc answer = history)
      (localZip : world'.localZip = world.localZip)
      (remoteFile : world'.remoteFile = world.remoteFile)
      (opened : (pc.next remoteHost1 answer).Meets
        (fun pc' => pc'.opened = [] ∨ pc'.opened = pc.opened) fun _ => True) :
      DownloadEffect world pc answer world'

def Call.touches : Call → Bool
  | .zipClose _ | .unlink _ | .sftpOpen _ .truncate | .sftpWrite _ => true
  | _ => false

theorem World.respond_quiet {world world' : World} {call : Call} {answer : call.Answer}
    (responds : world.respond call answer = some world') (quiet : call.touches = false) :
    world'.localZip = world.localZip ∧ world'.remoteFile = world.remoteFile := by
  rw [respond_after responds]
  cases call
  case zipClose | unlink | sftpWrite => cases quiet
  case sftpOpen path mode =>
    cases mode with
    | truncate => cases quiet
    | read => exact ⟨rfl, rfl⟩
  all_goals exact ⟨rfl, rfl⟩

theorem World.respond_read_running {world world' : World} {running : Bool}
    (responds : world.respond .readRunning running = some world') : running = world.running := by
  simp only [respond] at responds
  split at responds
  · assumption
  · cases responds

theorem World.respond_running {world world' : World} {call : Call} {answer : call.Answer}
    (responds : world.respond call answer = some world') (keeps : call ≠ .clearRunning) :
    world'.running = world.running := by
  rw [respond_after responds]
  cases call
  case clearRunning => exact absurd rfl keeps
  case zipClose | unlink | sftpWrite => cases answer <;> rfl
  case sftpOpen path mode => cases mode <;> cases answer <;> rfl
  all_goals rfl

theorem World.respond_stopped {world world' : World} {call : Call} {answer : call.Answer}
    (responds : world.respond call answer = some world') (stopped : world.running = false) :
    world'.running = false := by
  by_cases clears : call = .clearRunning
  · subst clears
    cases responds
    rfl
  · exact (World.respond_running responds clears).trans stopped

theorem stopped_step {state state' : PipelineState libraryEnv} {event : PipelineEvent libraryEnv}
    (steps : Step downloadThread uploadThread libraryEnv state event state')
    (stopped : state.world.running = false) : state'.world.running = false := by
  cases steps with
  | left responds => exact World.respond_stopped responds stopped
  | right responds => exact World.respond_stopped responds stopped
  | @move move left right world world' moves =>
      cases move
      cases moves
      rfl

theorem World.respond_unlink {world world' : World} {path : Bytes}
    (responds : world.respond (.unlink path) true = some world') : world'.localZip = none := by
  rw [respond_after responds]
  rfl

theorem World.respond_truncate {world world' : World} (path : Bytes) {opens : Bool}
    (responds : world.respond (.sftpOpen path .truncate) opens = some world') :
    world' = if opens then { world with remoteFile := some [] } else world.openUnanswered := by
  rw [respond_after responds]
  cases opens <;> rfl

theorem World.respond_write {world world' : World} {block : Bytes}
    {count : Fin (block.length + 1)}
    (responds : world.respond (.sftpWrite block) (some count) = some world') :
    world'.remoteFile = world.remoteFile.map (· ++ block.take count.val) := by
  rw [respond_after responds]
  rfl

theorem World.respond_ifstream_open {world world' : World} (path : Bytes) {file : ZipFile}
    (responds : world.respond (.ifstreamOpen path) (some file) = some world') :
    world.localZip = some file := by
  simp only [World.respond] at responds
  split at responds
  · assumption
  · cases responds

theorem World.opens_entries {world : World} {create : Bool} {opened : List Entry}
    (found : world.opens create opened = true) : opened = world.entries := by
  unfold opens at found
  unfold entries
  cases present : world.localZip with
  | none =>
      simp only [present, Bool.and_eq_true, List.isEmpty_iff] at found
      exact found.2
  | some file => simpa [present] using found

theorem World.respond_zip_open {world world' : World} (path : Bytes) {create : Bool}
    {opened : List Entry}
    (responds : world.respond (.zipOpen path create) (some opened) = some world') :
    opened = world.entries := by
  simp only [respond] at responds
  split at responds
  · rename_i found
    exact opens_entries found
  · cases responds

def World.closed (world : World) : Zip.CloseResult → World
  | .written file => { world with localZip := some file }
  | .discarded | .failed => world

theorem World.respond_close {world world' : World} {archive : Zip} {answer : Zip.CloseResult}
    (responds : world.respond (.zipClose archive) answer = some world') :
    archive.closes noFiles answer = true ∧ world' = world.closed answer := by
  cases answer <;>
    · simp only [respond] at responds
      split at responds
      · rename_i closes
        cases responds
        exact ⟨closes, rfl⟩
      · cases responds

theorem World.respond_close_opened {world world' : World} {entries : List Entry}
    {answer : Zip.CloseResult}
    (responds : world.respond (.zipClose (.opened entries)) answer = some world') :
    world' = world := by
  rw [(respond_close responds).2, Zip.closes_opened (respond_close responds).1]
  rfl

@[simp] theorem loop_opened (vars : DownloadVars) (done todo : List Bytes) :
    (DownloadPc.loop vars done todo).opened = [] := by
  cases todo <;> rfl

@[simp] theorem listed_opened (vars : DownloadVars) (time : Nat)
    (newFiles : Option (List Bytes)) :
    (DownloadPc.listed vars time newFiles).opened = [] :=
  DownloadPc.listed_elim (motive := fun pc => pc.opened = [])
    (fun _ => rfl) (fun _ _ _ _ => rfl) vars time newFiles

theorem next_opened_outside {pc : DownloadPc} (answer : (pc.call remoteHost1).Answer)
    (outside : ∀ vars file todo done pc', pc ≠ .append vars file todo done pc') :
    (pc.next remoteHost1 answer).Meets
      (fun pc' => pc'.opened = [] ∨ pc'.opened = pc.opened) fun _ => True := by
  cases pc with
  | append vars file todo done pc => exact absurd rfl (outside vars file todo done pc)
  | listing vars time pc =>
      simp only [DownloadPc.next]
      split
      · exact .inl rfl
      · exact .inl (listed_opened _ _ _)
  | readRunning vars => cases answer <;> exact .inl rfl
  | session pc | sftp pc | fileSize vars file todo done | download vars file todo done pc =>
      simp only [DownloadPc.next]
      split <;> first | exact .inl rfl | trivial
  | sshFree => trivial
  | _ => exact .inl rfl

theorem append_effect {world world' : World} {vars : DownloadVars} {file : Bytes}
    {todo done : List Bytes} {pc : AppendPc}
    {answer : ((DownloadPc.append vars file todo done pc).call remoteHost1).Answer}
    (responds : world.respond ((DownloadPc.append vars file todo done pc).call remoteHost1)
      answer = some world') :
    DownloadEffect world (.append vars file todo done pc) answer world' := by
  cases pc with
  | zipOpen =>
      cases answer with
      | none =>
          have same := World.respond_quiet responds rfl
          exact .quiet (fun _ => rfl) same.1 same.2 (.inl rfl)
      | some opened =>
          simp only [DownloadPc.call, AppendPc.call, World.respond] at responds
          split at responds
          · rename_i found
            cases responds
            exact .opens found
          · cases responds
  | zipSourceBuffer opened =>
      have same := World.respond_quiet responds rfl
      cases answer <;> exact .quiet (fun _ => rfl) same.1 same.2 (.inr rfl)
  | zipCloseSource opened =>
      have same := World.respond_close_opened responds
      exact .quiet (fun _ => rfl) (by rw [same]) (by rw [same]) (.inl rfl)
  | zipFileAdd opened =>
      have same := World.respond_quiet responds rfl
      have originals := (Zip.file_add_added opened vars.fileContents.1 vars.fileContents.2
        answer).originals
      exact .quiet (fun _ => rfl) same.1 same.2 (.inr originals)
  | zipNameLocate archive =>
      have same := World.respond_quiet responds rfl
      cases answer <;> exact .quiet (fun _ => rfl) same.1 same.2 (.inr rfl)
  | zipFileSetEncryption archive index =>
      have same := World.respond_quiet responds rfl
      refine .quiet (fun _ => rfl) same.1 same.2 (.inr ?_)
      change ((archive.fileSetEncryption index zipPassphrase answer).getD archive).originals =
        archive.originals
      cases sets : archive.fileSetEncryption index zipPassphrase answer with
      | none => rfl
      | some after => exact (Zip.set_encryption_keeps sets).1
  | zipClose archive =>
      obtain ⟨closes, rfl⟩ := World.respond_close responds
      cases answer with
      | written written => exact .commit closes
      | discarded => exact .quiet (fun _ => rfl) rfl rfl (.inl rfl)
      | failed => exact .quiet (fun _ => rfl) rfl rfl (.inr rfl)
  | semPost result =>
      have same := World.respond_quiet responds rfl
      refine .quiet (fun _ => rfl) same.1 same.2 ?_
      cases result
      · exact .inl rfl
      · exact .inl (loop_opened _ _ _)
  | strerrorSource opened =>
      have same := World.respond_quiet responds rfl
      exact .quiet (fun _ => rfl) same.1 same.2 (.inr rfl)
  | semWait | strerrorOpen | strerrorClose =>
      have same := World.respond_quiet responds rfl
      exact .quiet (fun _ => rfl) same.1 same.2 (.inl rfl)

theorem download_effect {world world' : World} {pc : DownloadPc}
    {answer : (pc.call remoteHost1).Answer}
    (responds : world.respond (pc.call remoteHost1) answer = some world') :
    DownloadEffect world pc answer world' := by
  cases pc with
  | append vars file todo done pc => exact append_effect responds
  | listing vars time pc =>
      have outside := @next_opened_outside (.listing vars time pc) answer (by simp)
      cases pc with
      | fileExists newFiles attributes pc =>
          cases pc with
          | zipClose opened index =>
              have same := World.respond_close_opened responds
              exact .quiet (fun _ => rfl) (by rw [same]) (by rw [same]) outside
          | _ =>
              have same := World.respond_quiet responds rfl
              exact .quiet (fun _ => rfl) same.1 same.2 outside
      | _ =>
          have same := World.respond_quiet responds rfl
          exact .quiet (fun _ => rfl) same.1 same.2 outside
  | session pc | sftp pc =>
      have same := World.respond_quiet responds (by cases pc <;> rfl)
      exact .quiet (fun _ => rfl) same.1 same.2 (next_opened_outside answer (by simp))
  | download vars file todo done pc =>
      have same := World.respond_quiet responds (by cases pc <;> rfl)
      exact .quiet (fun _ => rfl) same.1 same.2 (next_opened_outside answer (by simp))
  | _ =>
      have same := World.respond_quiet responds rfl
      exact .quiet (fun _ => rfl) same.1 same.2 (next_opened_outside answer (by simp))

/-- The entries the handle at hand was opened on, if there is one. -/
def AppendPc.handle : AppendPc → Option (List Entry)
  | .zipSourceBuffer opened | .strerrorSource opened | .zipCloseSource opened
  | .zipFileAdd opened => some opened
  | .zipNameLocate archive | .zipFileSetEncryption archive _ | .zipClose archive
  | .strerrorClose archive => some archive.originals
  | _ => none

def DownloadPc.handle : DownloadPc → Option (List Entry)
  | .append _ _ _ _ pc => pc.handle
  | _ => none

@[simp] theorem loop_handle (vars : DownloadVars) (done todo : List Bytes) :
    (DownloadPc.loop vars done todo).handle = none := by
  cases todo <;> rfl

@[simp] theorem listed_handle (vars : DownloadVars) (time : Nat)
    (newFiles : Option (List Bytes)) : (DownloadPc.listed vars time newFiles).handle = none :=
  DownloadPc.listed_elim (motive := fun pc => pc.handle = none)
    (fun _ => rfl) (fun _ _ _ _ => rfl) vars time newFiles

theorem handle_next {world world' : World} {pc : DownloadPc}
    {answer : (pc.call remoteHost1).Answer}
    (responds : world.respond (pc.call remoteHost1) answer = some world') :
    (pc.next remoteHost1 answer).Meets
      (fun pc' => pc'.handle = none ∨ pc'.handle = some world.entries ∨ pc'.handle = pc.handle)
      fun _ => True := by
  cases pc with
  | append vars file todo done pc =>
      cases pc with
      | zipOpen =>
          cases answer with
          | none => exact .inl rfl
          | some opened =>
              have found := World.respond_zip_open localZipPath responds
              exact .inr (.inl (congrArg some found))
      | zipSourceBuffer opened => cases answer <;> exact .inr (.inr rfl)
      | zipFileAdd opened =>
          have originals := (Zip.file_add_added opened vars.fileContents.1 vars.fileContents.2
            answer).originals
          exact .inr (.inr (congrArg some originals))
      | zipNameLocate archive => cases answer <;> exact .inr (.inr rfl)
      | zipFileSetEncryption archive index =>
          refine .inr (.inr (congrArg some ?_))
          cases sets : archive.fileSetEncryption index zipPassphrase answer with
          | none => rfl
          | some after => exact (Zip.set_encryption_keeps sets).1
      | zipClose archive =>
          cases answer with
          | failed => exact .inr (.inr rfl)
          | discarded | written => exact .inl rfl
      | semPost result =>
          cases result with
          | false => exact .inl rfl
          | true => exact .inl (loop_handle _ _ _)
      | strerrorSource opened => exact .inr (.inr rfl)
      | semWait | strerrorOpen | zipCloseSource | strerrorClose => exact .inl rfl
  | listing vars time pc =>
      simp only [DownloadPc.next]
      split
      · exact .inl rfl
      · exact .inl (listed_handle _ _ _)
  | readRunning vars => cases answer <;> exact .inl rfl
  | session pc | sftp pc | fileSize vars file todo done | download vars file todo done pc =>
      simp only [DownloadPc.next]
      split <;> first | exact .inl rfl | trivial
  | sshFree => trivial
  | _ => exact .inl rfl

theorem commit_stored {vars : DownloadVars} {file : Bytes} {todo done : List Bytes}
    {archive : Zip} {written : ZipFile}
    (sound : (DownloadPc.append vars file todo done (.zipClose archive)).Sound)
    (closes : archive.closes noFiles (.written written) = true) :
    Zip.IsAddition vars.fileContents.1 vars.fileContents.2 archive.buffered ∧
      written.stored = archive.originals.map (·.stored) ++ archive.buffered := by
  obtain ⟨opened, appends⟩ := sound
  simp only [Zip.closes, Bool.and_eq_true, decide_eq_true_eq] at closes
  rw [appends.originals]
  exact appends.written closes.2

end FileTransfer
