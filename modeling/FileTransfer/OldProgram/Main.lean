import FileTransfer.OldProgram.Functions

/-!
# `main` of `file-transfer-old.cpp`

The sessions to both hosts, then rounds without end: list, download, archive,
upload, delete. Whatever came of a round, the next one asks for files changed
after its end.
-/

namespace FileTransfer.Old

set_option autoImplicit false

open Interaction (Next)

/-- The points of `main`. `lastRun` is `last_run`; in a round, `files` are the
files found, as remote paths. -/
inductive MainPc where
  | currentTime
  | ssh1 (lastRun : Nat) (pc : SshSessionPc)
  | sftp1 (lastRun : Nat) (pc : SftpSessionPc)
  | ssh2 (lastRun : Nat) (pc : SshSessionPc)
  | sftp2 (lastRun : Nat) (pc : SftpSessionPc)
  /-- The cleanup after a session could not be made; the flag says whether the
  second `ssh_session` is there to be released too. -/
  | freeSftp1 (second : Bool)
  | disconnect1 (second : Bool)
  | free1 (second : Bool)
  | disconnect2
  | free2
  | check (lastRun : Nat) (pc : ListPc)
  | download (files : List Bytes) (file : Bytes) (todo : List Bytes) (pc : DownloadFilePc)
  | createZip (files : List Bytes) (pc : CreateZipPc)
  | upload (files : List Bytes) (pc : UploadFilePc)
  | unlink (file : Bytes) (todo : List Bytes)
  | time
  | sleep (lastRun : Nat)
  deriving DecidableEq

def MainPc.call : MainPc → Call
  | .currentTime | .time => .time
  | .ssh1 _ pc => pc.call .host1 remoteHost1
  | .sftp1 _ pc => pc.call .host1
  | .ssh2 _ pc => pc.call .host2 remoteHost2
  | .sftp2 _ pc => pc.call .host2
  | .freeSftp1 _ => .sftpFree .host1
  | .disconnect1 _ => .sshDisconnect .host1
  | .free1 _ => .sshFree .host1
  | .disconnect2 => .sshDisconnect .host2
  | .free2 => .sshFree .host2
  | .check _ pc => pc.call remote1CollectDir
  | .download _ file _ pc => pc.call file (localFile file)
  | .createZip _ pc => pc.call localZipPath zipPassphrase
  | .upload _ pc => pc.call localZipPath remote2DestPath
  | .unlink file _ => .unlink file
  | .sleep _ => .sleepFor checkInterval

def MainPc.downloads (files : List Bytes) : List Bytes → MainPc
  | [] => .createZip files .zipOpen
  | file :: todo => .download files file todo .sftpOpen

def MainPc.deletes : List Bytes → MainPc
  | [] => .time
  | file :: todo => .unlink file todo

/-- The result is the exit status. -/
def MainPc.next : (pc : MainPc) → pc.call.Answer → Next MainPc Nat
  | .currentTime, now => .goto (.ssh1 now .sshNew)
  | .ssh1 lastRun pc, answer => match pc.next .host1 remoteHost1 answer with
      | .goto pc' => .goto (.ssh1 lastRun pc')
      | .done false => .done 1
      | .done true => .goto (.sftp1 lastRun .sftpNew)
  | .sftp1 lastRun pc, answer => match pc.next .host1 answer with
      | .goto pc' => .goto (.sftp1 lastRun pc')
      | .done false => .goto (.disconnect1 false)
      | .done true => .goto (.ssh2 lastRun .sshNew)
  | .ssh2 lastRun pc, answer => match pc.next .host2 remoteHost2 answer with
      | .goto pc' => .goto (.ssh2 lastRun pc')
      | .done false => .goto (.freeSftp1 false)
      | .done true => .goto (.sftp2 lastRun .sftpNew)
  | .sftp2 lastRun pc, answer => match pc.next .host2 answer with
      | .goto pc' => .goto (.sftp2 lastRun pc')
      | .done false => .goto (.freeSftp1 true)
      | .done true => .goto (.check lastRun .sftpOpendir)
  | .freeSftp1 second, _ => .goto (.disconnect1 second)
  | .disconnect1 second, _ => .goto (.free1 second)
  | .free1 false, _ => .done 1
  | .free1 true, _ => .goto .disconnect2
  | .disconnect2, _ => .goto .free2
  | .free2, _ => .done 1
  | .check lastRun pc, answer => match pc.next remote1CollectDir lastRun answer with
      | .goto pc' => .goto (.check lastRun pc')
      | .done listed => match checkForNewFiles listed with
          | none => .goto .time
          | some files => .goto (.downloads files files)
  | .download files file todo pc, answer => match pc.next file (localFile file) answer with
      | .goto pc' => .goto (.download files file todo pc')
      | .done false => .goto .time
      | .done true => .goto (.downloads files todo)
  | .createZip files pc, answer =>
      match pc.next (files.map localFile) localZipPath zipPassphrase answer with
      | .goto pc' => .goto (.createZip files pc')
      | .done false => .goto .time
      | .done true => .goto (.upload files .ifstreamOpen)
  | .upload files pc, answer => match pc.next localZipPath remote2DestPath answer with
      | .goto pc' => .goto (.upload files pc')
      -- the local files go whether the upload succeeded or not
      | .done _ => .goto (.deletes (files.map localFile))
  | .unlink _ todo, _ => .goto (.deletes todo)
  | .time, now => .goto (.sleep now)
  | .sleep lastRun, _ => .goto (.check lastRun .sftpOpendir)

abbrev main : Function Nat where
  Pc := MainPc
  start := .currentTime
  call := MainPc.call
  next := MainPc.next

end FileTransfer.Old
