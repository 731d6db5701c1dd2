import FileTransfer.Program.Sessions
import FileTransfer.Program.Listing
import FileTransfer.Program.Transfer

/-!
# `download_routine` and `upload_routine`

The two threads `main` starts. A call of one of the functions above is a point
that holds the point reached inside it.
-/

namespace FileTransfer

set_option autoImplicit false

open Interaction (Next)

structure DownloadVars where
  fileHistory : List Bytes
  fileContents : FileContents
  lastRun : Nat
  deriving DecidableEq

/-- The de-duplicating insertion of a listing into `file_history`. -/
def insertNew (fileHistory newFiles : List Bytes) : List Bytes :=
  newFiles.foldl
    (fun history file => if file ∈ history then history else history ++ [file]) fileHistory

def removeProcessed (fileHistory filesToRemove : List Bytes) : List Bytes :=
  filesToRemove.foldl (fun history file => history.filter (· ≠ file)) fileHistory

/-- The points of `download_routine`. `time` is the iteration's `now`. In the
loop over `file_history`, `file` is the path at hand, `todo` the paths after it
and `done` is `files_to_remove`. -/
inductive DownloadPc where
  | session (pc : SshSessionPc)
  | sftp (pc : SftpSessionPc)
  | initialNow
  | readRunning (vars : DownloadVars)
  | now (vars : DownloadVars)
  | listing (vars : DownloadVars) (time : Nat) (pc : ListPc)
  | fileSize (vars : DownloadVars) (file : Bytes) (todo done : List Bytes)
  | download (vars : DownloadVars) (file : Bytes) (todo done : List Bytes) (pc : DownloadFilePc)
  | append (vars : DownloadVars) (file : Bytes) (todo done : List Bytes) (pc : AppendPc)
  | sleep (vars : DownloadVars)
  | clearRunning
  | sftpFree
  | sshDisconnect
  | sshFree
  deriving DecidableEq

def DownloadPc.call (host : Bytes) : DownloadPc → Call
  | .session pc => pc.call host
  | .sftp pc => pc.call
  | .initialNow | .now _ => .systemClockNow
  | .readRunning _ => .readRunning
  | .listing _ _ pc => pc.call remote1CollectDir
  | .fileSize _ _ _ _ => .stat localZipPath
  | .download _ file _ _ pc => pc.call file
  | .append vars _ _ _ pc =>
      pc.call vars.fileContents.1 vars.fileContents.2 localZipPath zipPassphrase
  | .sleep _ => .sleepFor checkInterval
  | .clearRunning => .clearRunning
  | .sftpFree => .sftpFree
  | .sshDisconnect => .sshDisconnect
  | .sshFree => .sshFree

/-- Where the loop over `file_history` ends, with or without a break. -/
def DownloadPc.endLoop (vars : DownloadVars) (done : List Bytes) : DownloadPc :=
  .sleep { vars with fileHistory := removeProcessed vars.fileHistory done }

def DownloadPc.loop (vars : DownloadVars) (done : List Bytes) : List Bytes → DownloadPc
  | [] => .endLoop vars done
  | file :: todo => .fileSize vars file todo done

/-- `get_file_size`: 0 if the `stat` fails. -/
def getFileSize (stat : Option Nat) : Nat := stat.getD 0

def checkFileExists (stat : Option Nat) : Bool := stat.isSome

def DownloadPc.listed (vars : DownloadVars) (time : Nat) :
    Option (List Bytes) → DownloadPc
  | none => .sleep vars
  | some newFiles =>
      let history := insertNew vars.fileHistory newFiles
      let vars := { vars with fileHistory := history, lastRun := time }
      if history.isEmpty then .sleep vars else .loop vars [] history

theorem DownloadPc.loop_elim {motive : DownloadPc → Prop}
    (sleep : ∀ vars, motive (.sleep vars))
    (fileSize : ∀ vars file todo done, motive (.fileSize vars file todo done))
    (vars : DownloadVars) (done todo : List Bytes) : motive (.loop vars done todo) := by
  cases todo with
  | nil => exact sleep _
  | cons file todo => exact fileSize _ _ _ _

theorem DownloadPc.listed_elim {motive : DownloadPc → Prop}
    (sleep : ∀ vars, motive (.sleep vars))
    (fileSize : ∀ vars file todo done, motive (.fileSize vars file todo done))
    (vars : DownloadVars) (time : Nat) (newFiles : Option (List Bytes)) :
    motive (.listed vars time newFiles) := by
  cases newFiles with
  | none => exact sleep _
  | some newFiles =>
      simp only [listed]
      split
      · exact sleep _
      · exact loop_elim sleep fileSize _ _ _

def DownloadPc.next (host : Bytes) :
    (pc : DownloadPc) → (pc.call host).Answer → Next DownloadPc Unit
  | .session pc, answer => match pc.next host answer with
      | .goto pc' => .goto (.session pc')
      | .done false => .done ()
      | .done true => .goto (.sftp .sftpNew)
  | .sftp pc, answer => match pc.next answer with
      | .goto pc' => .goto (.sftp pc')
      -- set-up failed: the session is released and the routine returns
      | .done false => .goto .sshDisconnect
      | .done true => .goto .initialNow
  | .initialNow, time => .goto (.readRunning ⟨[], ([], []), time⟩)
  | .readRunning vars, true => .goto (.now vars)
  | .readRunning _, false => .goto .clearRunning
  | .now vars, time => .goto (.listing vars time .sftpOpendir)
  | .listing vars time pc, answer => match pc.next remote1CollectDir vars.lastRun answer with
      | .goto pc' => .goto (.listing vars time pc')
      | .done result => .goto (.listed vars time (checkForNewFiles result))
  | .fileSize vars file todo done, stat =>
      if maxZipSize < getFileSize stat then .goto (.endLoop vars done)
      else .goto (.download vars file todo done .sftpOpen)
  | .download vars file todo done pc, answer =>
      match pc.next file vars.fileContents answer with
      | .goto pc' => .goto (.download vars file todo done pc')
      | .done (false, _) => .goto (.endLoop vars done)
      | .done (true, fileContents) =>
          .goto (.append { vars with fileContents := fileContents } file todo done .semWait)
  | .append vars file todo done pc, answer =>
      match pc.next vars.fileContents.1 vars.fileContents.2 localZipPath zipPassphrase answer with
      | .goto pc' => .goto (.append vars file todo done pc')
      | .done true => .goto (.loop vars (done ++ [file]) todo)
      | .done false => .goto (.endLoop vars done)
  | .sleep vars, _ => .goto (.readRunning vars)
  | .clearRunning, _ => .goto .sftpFree
  | .sftpFree, _ => .goto .sshDisconnect
  | .sshDisconnect, _ => .goto .sshFree
  | .sshFree, _ => .done ()

abbrev downloadRoutine (host : Bytes) : Function Unit where
  Pc := DownloadPc
  start := .session .sshNew
  call := DownloadPc.call host
  next := DownloadPc.next host

inductive UploadPc where
  | session (pc : SshSessionPc)
  | sftp (pc : SftpSessionPc)
  | readRunning
  | fileExists
  | fileSize
  | upload (pc : UploadFilePc)
  | unlink
  | sleep
  | clearRunning
  | sftpFree
  | sshDisconnect
  | sshFree
  deriving DecidableEq

def UploadPc.call (host remotePath : Bytes) : UploadPc → Call
  | .session pc => pc.call host
  | .sftp pc => pc.call
  | .readRunning => .readRunning
  | .fileExists | .fileSize => .stat localZipPath
  | .upload pc => pc.call localZipPath remotePath
  | .unlink => .unlink localZipPath
  | .sleep => .sleepFor 20
  | .clearRunning => .clearRunning
  | .sftpFree => .sftpFree
  | .sshDisconnect => .sshDisconnect
  | .sshFree => .sshFree

def UploadPc.next (host remotePath : Bytes) :
    (pc : UploadPc) → (pc.call host remotePath).Answer → Next UploadPc Unit
  | .session pc, answer => match pc.next host answer with
      | .goto pc' => .goto (.session pc')
      | .done false => .done ()
      | .done true => .goto (.sftp .sftpNew)
  | .sftp pc, answer => match pc.next answer with
      | .goto pc' => .goto (.sftp pc')
      | .done false => .goto .sshDisconnect
      | .done true => .goto .readRunning
  | .readRunning, true => .goto .fileExists
  | .readRunning, false => .goto .clearRunning
  | .fileExists, stat => if checkFileExists stat then .goto .fileSize else .goto .sleep
  | .fileSize, stat =>
      if getFileSize stat ≤ maxZipSize then .goto (.upload .semWait) else .goto .sleep
  | .upload pc, answer => match pc.next localZipPath remotePath answer with
      | .goto pc' => .goto (.upload pc')
      | .done true => .goto .unlink
      -- a failed upload breaks out of the loop
      | .done false => .goto .clearRunning
  | .unlink, _ => .goto .sleep
  | .sleep, _ => .goto .readRunning
  | .clearRunning, _ => .goto .sftpFree
  | .sftpFree, _ => .goto .sshDisconnect
  | .sshDisconnect, _ => .goto .sshFree
  | .sshFree, _ => .done ()

abbrev uploadRoutine (host remotePath : Bytes) : Function Unit where
  Pc := UploadPc
  start := .session .sshNew
  call := UploadPc.call host remotePath
  next := UploadPc.next host remotePath

end FileTransfer
