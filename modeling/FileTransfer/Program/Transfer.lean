import FileTransfer.Program.Calls

/-!
# Moving files

`download_file`, `download_files`, `append_to_zip`, `create_zip_from_files` and
`upload_file`. The last three take the semaphore; every point after `sem_wait`
up to and including `sem_post` lies in their critical section.
-/

namespace FileTransfer

set_option autoImplicit false

open Interaction (Next)

abbrev FileContents := Bytes × Bytes

inductive DownloadFilePc where
  | sftpOpen
  | sftpRead (buffer : Bytes)
  | sftpClose (buffer : Bytes) (complete : Bool)
  deriving DecidableEq

def DownloadFilePc.call (remoteFile : Bytes) : DownloadFilePc → Call
  | .sftpOpen => .sftpOpen remoteFile .read
  | .sftpRead _ => .sftpRead 1024
  | .sftpClose _ _ => .sftpClose

def DownloadFilePc.next (remoteFile : Bytes) (fileContents : FileContents) :
    (pc : DownloadFilePc) → (pc.call remoteFile).Answer →
      Next DownloadFilePc (Bool × FileContents)
  | .sftpOpen, false => .done (false, fileContents)
  | .sftpOpen, true => .goto (.sftpRead [])
  | .sftpRead buffer, .data chunk => .goto (.sftpRead (buffer ++ chunk.val))
  | .sftpRead buffer, .eof => .goto (.sftpClose buffer true)
  | .sftpRead buffer, .error => .goto (.sftpClose buffer false)
  | .sftpClose _ false, _ => .done (false, fileContents)
  | .sftpClose buffer true, _ => .done (true, (baseName remoteFile, buffer))

/-- The result is the returned flag and `file_contents` as passed out. -/
abbrev downloadFile (remoteFile : Bytes) (fileContents : FileContents) :
    Function (Bool × FileContents) where
  Pc := DownloadFilePc
  start := .sftpOpen
  call := DownloadFilePc.call remoteFile
  next := DownloadFilePc.next remoteFile fileContents

inductive DownloadFilesPc where
  | sftpOpen (file : Bytes) (todo : List Bytes)
  | ofstreamOpen (file : Bytes) (todo : List Bytes)
  | sftpCloseUnopened
  | sftpRead (file : Bytes) (todo : List Bytes)
  | ofstreamWrite (block : Bytes) (file : Bytes) (todo : List Bytes)
  | sftpClose (file : Bytes) (todo : List Bytes)
  | ofstreamClose (file : Bytes) (todo : List Bytes)
  deriving DecidableEq

def DownloadFilesPc.call (localDir : Bytes) : DownloadFilesPc → Call
  | .sftpOpen file _ => .sftpOpen file .read
  | .ofstreamOpen file _ => .ofstreamOpen (localDir ++ baseName file)
  | .sftpCloseUnopened => .sftpClose
  | .sftpRead _ _ => .sftpRead 1024
  | .ofstreamWrite block _ _ => .ofstreamWrite block
  | .sftpClose _ _ => .sftpClose
  | .ofstreamClose _ _ => .ofstreamClose

def DownloadFilesPc.loop : List Bytes → Next DownloadFilesPc Bool
  | [] => .done true
  | file :: todo => .goto (.sftpOpen file todo)

def DownloadFilesPc.next (localDir : Bytes) :
    (pc : DownloadFilesPc) → (pc.call localDir).Answer → Next DownloadFilesPc Bool
  | .sftpOpen _ _, false => .done false
  | .sftpOpen file todo, true => .goto (.ofstreamOpen file todo)
  | .ofstreamOpen _ _, false => .goto .sftpCloseUnopened
  | .ofstreamOpen file todo, true => .goto (.sftpRead file todo)
  | .sftpCloseUnopened, _ => .done false
  | .sftpRead file todo, .data chunk => .goto (.ofstreamWrite chunk.val file todo)
  -- a negative result ends the loop like 0 does
  | .sftpRead file todo, .eof => .goto (.sftpClose file todo)
  | .sftpRead file todo, .error => .goto (.sftpClose file todo)
  | .ofstreamWrite _ file todo, _ => .goto (.sftpRead file todo)
  | .sftpClose file todo, _ => .goto (.ofstreamClose file todo)
  | .ofstreamClose _ todo, _ => DownloadFilesPc.loop todo

/-- For a list with a first file; for an empty one it returns true at once. -/
abbrev downloadFiles (file : Bytes) (todo : List Bytes) (localDir : Bytes) : Function Bool where
  Pc := DownloadFilesPc
  start := .sftpOpen file todo
  call := DownloadFilesPc.call localDir
  next := DownloadFilesPc.next localDir

inductive AppendPc where
  | semWait
  | zipOpen
  | strerrorOpen
  | zipSourceBuffer (opened : List Entry)
  | strerrorSource (opened : List Entry)
  | zipCloseSource (opened : List Entry)
  | zipFileAdd (opened : List Entry)
  | zipNameLocate (archive : Zip)
  | zipFileSetEncryption (archive : Zip) (index : Option Nat)
  | zipClose (archive : Zip)
  | strerrorClose (archive : Zip)
  | semPost (result : Bool)
  deriving DecidableEq

def AppendPc.call (fileName content zipPath password : Bytes) : AppendPc → Call
  | .semWait => .semWait
  | .zipOpen => .zipOpen zipPath true
  | .strerrorOpen => .zipStrerror none
  | .zipSourceBuffer _ => .zipSourceBuffer content
  | .strerrorSource opened => .zipStrerror (some (.opened opened))
  | .zipCloseSource opened => .zipClose (.opened opened)
  | .zipFileAdd opened => .zipFileAdd (.opened opened) fileName (.buffer content)
  | .zipNameLocate archive => .zipNameLocate archive fileName .utf8
  | .zipFileSetEncryption archive index => .zipFileSetEncryption archive index password
  | .zipClose archive => .zipClose archive
  | .strerrorClose archive => .zipStrerror (some archive)
  | .semPost _ => .semPost

def AppendPc.next (fileName content zipPath password : Bytes) :
    (pc : AppendPc) → (pc.call fileName content zipPath password).Answer → Next AppendPc Bool
  | .semWait, _ => .goto .zipOpen
  | .zipOpen, none => .goto .strerrorOpen
  | .zipOpen, some opened => .goto (.zipSourceBuffer opened)
  | .strerrorOpen, _ => .goto (.semPost false)
  | .zipSourceBuffer opened, false => .goto (.strerrorSource opened)
  | .zipSourceBuffer opened, true => .goto (.zipFileAdd opened)
  | .strerrorSource opened, _ => .goto (.zipCloseSource opened)
  | .zipCloseSource _, _ => .goto (.semPost false)
  -- the results of the next three calls are not looked at: a failed one leaves
  -- the handle as it was
  | .zipFileAdd opened, memory =>
      .goto (.zipNameLocate
        (((Zip.opened opened).fileAdd fileName (.buffer content) memory).getD (.opened opened)))
  | .zipNameLocate archive, false => .goto (.zipFileSetEncryption archive none)
  | .zipNameLocate archive, true =>
      .goto (.zipFileSetEncryption archive (archive.nameLocate fileName .utf8))
  | .zipFileSetEncryption archive index, memory =>
      .goto (.zipClose ((archive.fileSetEncryption index password memory).getD archive))
  | .zipClose archive, .failed => .goto (.strerrorClose archive)
  | .zipClose _, .discarded => .goto (.semPost true)
  | .zipClose _, .written _ => .goto (.semPost true)
  | .strerrorClose _, _ => .goto (.semPost false)
  | .semPost result, _ => .done result

abbrev appendToZip (fileName content zipPath password : Bytes) : Function Bool where
  Pc := AppendPc
  start := .semWait
  call := AppendPc.call fileName content zipPath password
  next := AppendPc.next fileName content zipPath password

inductive CreateZipPc where
  | semWait
  | zipOpen
  | strerrorOpen
  | zipSourceFile (archive : Zip) (file : Bytes) (todo : List Bytes)
  | strerrorSource (archive : Zip)
  | zipCloseSource (archive : Zip)
  | zipFileAdd (archive : Zip) (file : Bytes) (todo : List Bytes)
  | zipNameLocate (archive : Zip) (file : Bytes) (todo : List Bytes)
  | zipFileSetEncryption (archive : Zip) (index : Option Nat) (file : Bytes) (todo : List Bytes)
  | unlink (archive : Zip) (file : Bytes) (todo : List Bytes)
  | zipClose (archive : Zip)
  | strerrorClose (archive : Zip)
  | semPost (result : Bool)
  deriving DecidableEq

def CreateZipPc.call (localDir zipPath password : Bytes) : CreateZipPc → Call
  | .semWait => .semWait
  | .zipOpen => .zipOpen zipPath true
  | .strerrorOpen => .zipStrerror none
  | .zipSourceFile _ file _ => .zipSourceFile file
  | .strerrorSource archive => .zipStrerror (some archive)
  | .zipCloseSource archive => .zipClose archive
  | .zipFileAdd archive file _ => .zipFileAdd archive (baseName file) (.file file)
  | .zipNameLocate archive file _ => .zipNameLocate archive (baseName file) .utf8
  | .zipFileSetEncryption archive index _ _ => .zipFileSetEncryption archive index password
  | .unlink _ file _ => .unlink (localDir ++ baseName file)
  | .zipClose archive => .zipClose archive
  | .strerrorClose archive => .zipStrerror (some archive)
  | .semPost _ => .semPost

def CreateZipPc.loop (archive : Zip) : List Bytes → CreateZipPc
  | [] => .zipClose archive
  | file :: todo => .zipSourceFile archive file todo

def CreateZipPc.next (files : List Bytes) (localDir zipPath password : Bytes) :
    (pc : CreateZipPc) → (pc.call localDir zipPath password).Answer → Next CreateZipPc Bool
  | .semWait, _ => .goto .zipOpen
  | .zipOpen, none => .goto .strerrorOpen
  | .zipOpen, some opened => .goto (.loop (.opened opened) files)
  | .strerrorOpen, _ => .goto (.semPost false)
  | .zipSourceFile archive _ _, false => .goto (.strerrorSource archive)
  | .zipSourceFile archive file todo, true => .goto (.zipFileAdd archive file todo)
  | .strerrorSource archive, _ => .goto (.zipCloseSource archive)
  | .zipCloseSource _, _ => .goto (.semPost false)
  | .zipFileAdd archive file todo, memory =>
      .goto (.zipNameLocate
        ((archive.fileAdd (baseName file) (.file file) memory).getD archive) file todo)
  | .zipNameLocate archive file todo, false =>
      .goto (.zipFileSetEncryption archive none file todo)
  | .zipNameLocate archive file todo, true =>
      .goto (.zipFileSetEncryption archive (archive.nameLocate (baseName file) .utf8) file todo)
  | .zipFileSetEncryption archive index file todo, memory =>
      .goto (.unlink ((archive.fileSetEncryption index password memory).getD archive) file todo)
  | .unlink archive _ todo, _ => .goto (.loop archive todo)
  | .zipClose archive, .failed => .goto (.strerrorClose archive)
  | .zipClose _, .discarded => .goto (.semPost true)
  | .zipClose _, .written _ => .goto (.semPost true)
  | .strerrorClose _, _ => .goto (.semPost false)
  | .semPost result, _ => .done result

abbrev createZipFromFiles (files : List Bytes) (localDir zipPath password : Bytes) :
    Function Bool where
  Pc := CreateZipPc
  start := .semWait
  call := CreateZipPc.call localDir zipPath password
  next := CreateZipPc.next files localDir zipPath password

inductive UploadFilePc where
  | semWait
  | ifstreamOpen
  | sftpOpen (stream : Ifstream)
  | errorOpen
  | ifstreamRead (stream : Ifstream)
  | sftpWrite (stream : Ifstream) (block : Bytes)
  | errorWrite
  | sftpClose (result : Bool)
  | semPost (result : Bool)
  deriving DecidableEq

def UploadFilePc.call (localFile remoteFile : Bytes) : UploadFilePc → Call
  | .semWait => .semWait
  | .ifstreamOpen => .ifstreamOpen localFile
  | .sftpOpen _ => .sftpOpen remoteFile .truncate
  -- the SFTP handle is passed where a session is expected
  | .errorOpen | .errorWrite => .sshGetError .sftp
  | .ifstreamRead stream => .ifstreamRead stream 4096
  | .sftpWrite _ block => .sftpWrite block
  | .sftpClose _ => .sftpClose
  | .semPost _ => .semPost

def UploadFilePc.next (localFile remoteFile : Bytes) :
    (pc : UploadFilePc) → (pc.call localFile remoteFile).Answer → Next UploadFilePc Bool
  | .semWait, _ => .goto .ifstreamOpen
  | .ifstreamOpen, none => .goto (.semPost false)
  | .ifstreamOpen, some file => .goto (.sftpOpen ⟨file, 0, true⟩)
  | .sftpOpen _, false => .goto .errorOpen
  | .sftpOpen stream, true => .goto (.ifstreamRead stream)
  | .errorOpen, _ => .goto (.semPost false)
  | .ifstreamRead stream, disk =>
      let (block, stream') := stream.read 4096 disk
      if stream'.good || 0 < block.length then .goto (.sftpWrite stream' block)
      else .goto (.sftpClose true)
  | .sftpWrite _ _, none => .goto .errorWrite
  | .sftpWrite stream block, some count =>
      if count.val = block.length then .goto (.ifstreamRead stream) else .goto .errorWrite
  | .errorWrite, _ => .goto (.sftpClose false)
  | .sftpClose result, _ => .goto (.semPost result)
  | .semPost result, _ => .done result

abbrev uploadFile (localFile remoteFile : Bytes) : Function Bool where
  Pc := UploadFilePc
  start := .semWait
  call := UploadFilePc.call localFile remoteFile
  next := UploadFilePc.next localFile remoteFile

end FileTransfer
