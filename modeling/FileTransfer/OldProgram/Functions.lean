import FileTransfer.Program.Calls

/-!
# The functions of `file-transfer-old.cpp`

The program before it had threads: one loop, no semaphore, and the files on the
local disk between the download and the archive. Calls and answers are those of
the other program where they are the same; the two sessions are told apart.
-/

namespace FileTransfer.Old

set_option autoImplicit false

open Interaction (Next)

def localPrivateKeyPath : Bytes := ascii "/home/kali/.ssh/id_rsa"
def localPath : Bytes := ascii "/tmp/local/"

inductive Remote where
  | host1
  | host2
  deriving DecidableEq

inductive SshOption where
  | user
  | host
  | identity
  deriving DecidableEq

inductive Call where
  | time
  | sleepFor (seconds : Nat)
  | sshNew (remote : Remote)
  | sshOptionsSet (remote : Remote) (option : SshOption) (value : Bytes)
  | sshConnect (remote : Remote)
  | sshUserauthPublickeyAuto (remote : Remote)
  | sshDisconnect (remote : Remote)
  | sshFree (remote : Remote)
  | sshGetError (source : ErrorSource)
  | sftpNew (remote : Remote)
  | sftpInit (remote : Remote)
  | sftpFree (remote : Remote)
  | sftpOpendir (path : Bytes)
  | sftpReaddir
  | sftpAttributesFree
  | sftpClosedir
  | sftpOpen (remote : Remote) (path : Bytes) (mode : OpenMode)
  | sftpRead (count : Nat)
  | sftpWrite (block : Bytes)
  | sftpClose (remote : Remote)
  | zipOpen (path : Bytes) (create : Bool)
  | zipSourceFile (path : Bytes)
  | zipFileAdd (archive : Zip) (name : Bytes) (source : Source)
  | zipNameLocate (archive : Zip) (name : Bytes) (flags : NameFlags)
  | zipFileSetEncryption (archive : Zip) (index : Option Nat) (password : Bytes)
  | zipClose (archive : Zip)
  | zipStrerror (archive : Option Zip)
  | unlink (path : Bytes)
  | ifstreamOpen (path : Bytes)
  | ifstreamRead (stream : Ifstream) (count : Nat)
  | ofstreamOpen (path : Bytes)
  | ofstreamWrite (block : Bytes)
  | ofstreamClose

@[reducible] def Call.Answer : Call → Type
  | .time => Nat
  | .sleepFor _ | .sshDisconnect _ | .sshFree _ | .sshGetError _ | .sftpFree _ => Unit
  | .sftpAttributesFree | .zipStrerror _ => Unit
  | .sshNew _ | .sshOptionsSet _ _ _ | .sshConnect _ | .sshUserauthPublickeyAuto _ => Bool
  | .sftpNew _ | .sftpInit _ | .sftpOpendir _ | .sftpClosedir => Bool
  | .sftpOpen _ _ _ | .sftpClose _ | .zipSourceFile _ | .zipFileAdd _ _ _ => Bool
  | .zipNameLocate _ _ _ | .zipFileSetEncryption _ _ _ | .unlink _ => Bool
  | .sftpReaddir => Readdir
  | .sftpRead count => SftpRead count
  | .sftpWrite block => Option (Fin (block.length + 1))
  | .zipOpen _ _ => Option (List Entry)
  | .zipClose _ => Zip.CloseResult
  | .ifstreamOpen _ => Option ZipFile
  | .ifstreamRead _ _ => DiskRead
  | .ofstreamOpen _ | .ofstreamWrite _ | .ofstreamClose => Bool

abbrev Function (R : Type) := Interaction.Routine Call.Answer R

inductive SshSessionPc where
  | sshNew
  | setUser
  | setHost
  | setIdentity
  | errorIdentity
  | sshConnect
  | errorConnect
  | userauth
  | errorUserauth
  | sshDisconnect
  | sshFree
  deriving DecidableEq

def SshSessionPc.call (remote : Remote) (host : Bytes) : SshSessionPc → Call
  | .sshNew => .sshNew remote
  | .setUser => .sshOptionsSet remote .user (ascii "kali")
  | .setHost => .sshOptionsSet remote .host host
  | .setIdentity => .sshOptionsSet remote .identity localPrivateKeyPath
  | .errorIdentity | .errorConnect | .errorUserauth => .sshGetError .session
  | .sshConnect => .sshConnect remote
  | .userauth => .sshUserauthPublickeyAuto remote
  | .sshDisconnect => .sshDisconnect remote
  | .sshFree => .sshFree remote

def SshSessionPc.next (remote : Remote) (host : Bytes) :
    (pc : SshSessionPc) → (pc.call remote host).Answer → Next SshSessionPc Bool
  | .sshNew, false => .done false
  | .sshNew, true => .goto .setUser
  | .setUser, _ => .goto .setHost
  | .setHost, _ => .goto .setIdentity
  | .setIdentity, false => .goto .errorIdentity
  | .setIdentity, true => .goto .sshConnect
  | .errorIdentity, _ => .goto .sshFree
  | .sshConnect, false => .goto .errorConnect
  | .sshConnect, true => .goto .userauth
  | .errorConnect, _ => .goto .sshFree
  | .userauth, false => .goto .errorUserauth
  | .userauth, true => .done true
  | .errorUserauth, _ => .goto .sshDisconnect
  | .sshDisconnect, _ => .goto .sshFree
  | .sshFree, _ => .done false

inductive SftpSessionPc where
  | sftpNew
  | errorNew
  | sftpInit
  | errorInit
  | sftpFree
  deriving DecidableEq

def SftpSessionPc.call (remote : Remote) : SftpSessionPc → Call
  | .sftpNew => .sftpNew remote
  | .errorNew | .errorInit => .sshGetError .session
  | .sftpInit => .sftpInit remote
  | .sftpFree => .sftpFree remote

def SftpSessionPc.next (remote : Remote) :
    (pc : SftpSessionPc) → (pc.call remote).Answer → Next SftpSessionPc Bool
  | .sftpNew, false => .goto .errorNew
  | .sftpNew, true => .goto .sftpInit
  | .errorNew, _ => .done false
  | .sftpInit, false => .goto .errorInit
  | .sftpInit, true => .done true
  | .errorInit, _ => .goto .sftpFree
  | .sftpFree, _ => .done false

inductive ListPc where
  | sftpOpendir
  | errorOpendir
  | sftpReaddir (newFiles : List Bytes)
  | sftpAttributesFree (newFiles : List Bytes)
  | sftpClosedir (newFiles : List Bytes)
  deriving DecidableEq

def ListPc.call (path : Bytes) : ListPc → Call
  | .sftpOpendir => .sftpOpendir path
  | .errorOpendir => .sshGetError .sftp
  | .sftpReaddir _ => .sftpReaddir
  | .sftpAttributesFree _ => .sftpAttributesFree
  | .sftpClosedir _ => .sftpClosedir

def ListPc.next (path : Bytes) (lastRun : Nat) :
    (pc : ListPc) → (pc.call path).Answer → Next ListPc (Bool × List Bytes)
  | .sftpOpendir, false => .goto .errorOpendir
  | .sftpOpendir, true => .goto (.sftpReaddir [])
  | .errorOpendir, _ => .done (false, [])
  | .sftpReaddir newFiles, .entry attributes =>
      if attributes.type = .regular && lastRun < attributes.mtime then
        .goto (.sftpAttributesFree (newFiles ++ [remote1CollectDir ++ attributes.name]))
      else .goto (.sftpAttributesFree newFiles)
  | .sftpReaddir newFiles, .eof => .goto (.sftpClosedir newFiles)
  | .sftpReaddir newFiles, .error => .goto (.sftpClosedir newFiles)
  | .sftpAttributesFree newFiles, _ => .goto (.sftpReaddir newFiles)
  | .sftpClosedir newFiles, _ => .done (!newFiles.isEmpty, newFiles)

def checkForNewFiles (listed : Bool × List Bytes) : Option (List Bytes) :=
  if !listed.1 then none
  else if listed.2.isEmpty then none
  else some listed.2

inductive DownloadFilePc where
  | sftpOpen
  | ofstreamOpen
  | sftpRead
  | ofstreamWrite (block : Bytes)
  | sftpClose
  | ofstreamClose
  deriving DecidableEq

def DownloadFilePc.call (remoteFile localFile : Bytes) : DownloadFilePc → Call
  | .sftpOpen => .sftpOpen .host1 remoteFile .read
  | .ofstreamOpen => .ofstreamOpen localFile
  | .sftpRead => .sftpRead 1024
  | .ofstreamWrite block => .ofstreamWrite block
  | .sftpClose => .sftpClose .host1
  | .ofstreamClose => .ofstreamClose

def DownloadFilePc.next (remoteFile localFile : Bytes) :
    (pc : DownloadFilePc) → (pc.call remoteFile localFile).Answer → Next DownloadFilePc Bool
  | .sftpOpen, false => .done false
  | .sftpOpen, true => .goto .ofstreamOpen
  -- the remote file stays open
  | .ofstreamOpen, false => .done false
  | .ofstreamOpen, true => .goto .sftpRead
  | .sftpRead, .data chunk => .goto (.ofstreamWrite chunk.val)
  | .sftpRead, .eof => .goto .sftpClose
  | .sftpRead, .error => .goto .sftpClose
  | .ofstreamWrite _, _ => .goto .sftpRead
  | .sftpClose, _ => .goto .ofstreamClose
  | .ofstreamClose, _ => .done true

def localFile (remoteFile : Bytes) : Bytes := localPath ++ baseName remoteFile

inductive CreateZipPc where
  | zipOpen
  | strerrorOpen
  | zipSourceFile (archive : Zip) (file : Bytes) (todo : List Bytes)
  | strerrorSource (archive : Zip)
  | zipCloseSource (archive : Zip)
  | zipFileAdd (archive : Zip) (file : Bytes) (todo : List Bytes)
  | zipNameLocate (archive : Zip) (file : Bytes) (todo : List Bytes)
  | zipFileSetEncryption (archive : Zip) (index : Option Nat) (file : Bytes) (todo : List Bytes)
  | zipClose (archive : Zip)
  | strerrorClose (archive : Zip)
  deriving DecidableEq

def CreateZipPc.call (zipPath password : Bytes) : CreateZipPc → Call
  | .zipOpen => .zipOpen zipPath true
  | .strerrorOpen => .zipStrerror none
  | .zipSourceFile _ file _ => .zipSourceFile file
  | .strerrorSource archive => .zipStrerror (some archive)
  | .zipCloseSource archive => .zipClose archive
  | .zipFileAdd archive file _ => .zipFileAdd archive (baseName file) (.file file)
  | .zipNameLocate archive file _ => .zipNameLocate archive (baseName file) .utf8
  | .zipFileSetEncryption archive index _ _ => .zipFileSetEncryption archive index password
  | .zipClose archive => .zipClose archive
  | .strerrorClose archive => .zipStrerror (some archive)

def CreateZipPc.loop (archive : Zip) : List Bytes → CreateZipPc
  | [] => .zipClose archive
  | file :: todo => .zipSourceFile archive file todo

def CreateZipPc.next (files : List Bytes) (zipPath password : Bytes) :
    (pc : CreateZipPc) → (pc.call zipPath password).Answer → Next CreateZipPc Bool
  | .zipOpen, none => .goto .strerrorOpen
  | .zipOpen, some opened => .goto (.loop (.opened opened) files)
  | .strerrorOpen, _ => .done false
  | .zipSourceFile archive _ _, false => .goto (.strerrorSource archive)
  | .zipSourceFile archive file todo, true => .goto (.zipFileAdd archive file todo)
  | .strerrorSource archive, _ => .goto (.zipCloseSource archive)
  | .zipCloseSource _, _ => .done false
  -- the results of the next three calls are not looked at
  | .zipFileAdd archive file todo, memory =>
      .goto (.zipNameLocate
        ((archive.fileAdd (baseName file) (.file file) memory).getD archive) file todo)
  | .zipNameLocate archive file todo, false =>
      .goto (.zipFileSetEncryption archive none file todo)
  | .zipNameLocate archive file todo, true =>
      .goto (.zipFileSetEncryption archive (archive.nameLocate (baseName file) .utf8) file todo)
  | .zipFileSetEncryption archive index _ todo, memory =>
      .goto (.loop ((archive.fileSetEncryption index password memory).getD archive) todo)
  | .zipClose archive, .failed => .goto (.strerrorClose archive)
  | .zipClose _, .discarded => .done true
  | .zipClose _, .written _ => .done true
  | .strerrorClose _, _ => .done false

inductive UploadFilePc where
  | ifstreamOpen
  | sftpOpen (stream : Ifstream)
  | errorOpen
  | ifstreamRead (stream : Ifstream)
  | sftpWrite (stream : Ifstream) (block : Bytes)
  | errorWrite
  | sftpClose (result : Bool)
  deriving DecidableEq

def UploadFilePc.call (localFile remoteFile : Bytes) : UploadFilePc → Call
  | .ifstreamOpen => .ifstreamOpen localFile
  | .sftpOpen _ => .sftpOpen .host2 remoteFile .truncate
  | .errorOpen | .errorWrite => .sshGetError .sftp
  | .ifstreamRead stream => .ifstreamRead stream 4096
  | .sftpWrite _ block => .sftpWrite block
  | .sftpClose _ => .sftpClose .host2

def UploadFilePc.next (localFile remoteFile : Bytes) :
    (pc : UploadFilePc) → (pc.call localFile remoteFile).Answer → Next UploadFilePc Bool
  | .ifstreamOpen, none => .done false
  | .ifstreamOpen, some file => .goto (.sftpOpen ⟨file, 0, true⟩)
  | .sftpOpen _, false => .goto .errorOpen
  | .sftpOpen stream, true => .goto (.ifstreamRead stream)
  | .errorOpen, _ => .done false
  | .ifstreamRead stream, disk =>
      let (block, stream') := stream.read 4096 disk
      if stream'.good || 0 < block.length then .goto (.sftpWrite stream' block)
      else .goto (.sftpClose true)
  | .sftpWrite _ _, none => .goto .errorWrite
  | .sftpWrite stream block, some count =>
      if count.val = block.length then .goto (.ifstreamRead stream) else .goto .errorWrite
  | .errorWrite, _ => .goto (.sftpClose false)
  | .sftpClose result, _ => .done result

end FileTransfer.Old
