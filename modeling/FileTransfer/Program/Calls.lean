import FileTransfer.Archive.Handle
import FileTransfer.Interaction.Routine

/-!
# The calls of the program

Every call `file-transfer.cpp` makes outside its own functions, with its
arguments, and the type of what it gives back. Console output is left out; the
`ssh_get_error` and `zip_strerror` calls inside it are not, since they take a
handle. A libzip handle is passed as the value it stands for, so a call on it
only reports whether memory and input/output sufficed.
-/

namespace FileTransfer

set_option autoImplicit false

inductive SshOption where
  | user
  | host
  | publickeyAcceptedTypes
  deriving DecidableEq

/-- The handle an `ssh_get_error` is given: the second is a slip of the types
the compiler cannot see. -/
inductive ErrorSource where
  | session
  | sftp
  deriving DecidableEq

inductive OpenMode where
  /-- `O_RDONLY`. -/
  | read
  /-- `O_WRONLY | O_CREAT | O_TRUNC`, with `S_IRWXU`. -/
  | truncate
  deriving DecidableEq

inductive FileType where
  | regular
  | directory
  | symlink
  | special
  | unknown
  deriving DecidableEq

/-- The fields of `sftp_attributes` the program reads; `mtime` is in whole
seconds. -/
structure Attributes where
  name : Bytes
  type : FileType
  mtime : Nat
  deriving DecidableEq

/-- What `sftp_readdir` comes to. Both `eof` and `error` are NULL to the
caller; only `sftp_dir_eof`, which is never asked, tells them apart. -/
inductive Readdir where
  | entry (attributes : Attributes)
  | eof
  | error
  deriving DecidableEq

abbrev Chunk (limit : Nat) := {bytes : Bytes // bytes ≠ [] ∧ bytes.length ≤ limit}

/-- What `sftp_read` comes to: bytes, 0 or a negative number. -/
inductive SftpRead (count : Nat) where
  | data (chunk : Chunk count)
  | eof
  | error
  deriving DecidableEq

/-- An `ifstream` on a local file. The content is that of the file it was
opened on, whatever happens to the path later. `good` is lost when a read
comes short. -/
structure Ifstream where
  file : ZipFile
  position : Nat
  good : Bool
  deriving DecidableEq

/-- How the disk serves one `ifstream::read`: up to the count or the end of the
file, or with a `read(2)` that fails. -/
inductive DiskRead where
  | complete
  | error
  deriving DecidableEq

def DiskRead.isComplete : DiskRead → Bool
  | .complete => true
  | .error => false

/-- `ifstream::read`: the bytes `gcount` counts, and the stream afterwards,
which is still good only if the buffer was filled. -/
def Ifstream.read (stream : Ifstream) (count : Nat) : DiskRead → Bytes × Ifstream
  | .complete =>
      if stream.good then
        let block := (stream.file.bytes.drop stream.position).take count
        (block, { stream with
          position := stream.position + block.length
          good := block.length = count })
      else ([], stream)
  -- `underflow` throws before libstdc++ has counted what it had copied
  | .error => ([], { stream with good := false })

inductive Call where
  | semWait
  | semPost
  | readRunning
  | clearRunning
  | systemClockNow
  | sleepFor (seconds : Nat)
  | sshNew
  | sshOptionsSet (option : SshOption) (value : Bytes)
  | sshConnect
  | sshPkiImportPrivkeyBase64 (key : Bytes)
  | sshUserauthPublickey
  | sshKeyFree
  | sshDisconnect
  | sshFree
  | sshGetError (source : ErrorSource)
  | sftpNew
  | sftpInit
  | sftpFree
  | sftpOpendir (path : Bytes)
  | sftpReaddir
  | sftpAttributesFree
  | sftpClosedir
  | sftpOpen (path : Bytes) (mode : OpenMode)
  | sftpRead (count : Nat)
  | sftpWrite (block : Bytes)
  | sftpClose
  | zipOpen (path : Bytes) (create : Bool)
  | zipSourceBuffer (content : Bytes)
  | zipSourceFile (path : Bytes)
  | zipFileAdd (archive : Zip) (name : Bytes) (source : Source)
  | zipNameLocate (archive : Zip) (name : Bytes) (flags : NameFlags)
  | zipFileSetEncryption (archive : Zip) (index : Option Nat) (password : Bytes)
  | zipClose (archive : Zip)
  | zipStrerror (archive : Option Zip)
  | stat (path : Bytes)
  | unlink (path : Bytes)
  | ifstreamOpen (path : Bytes)
  | ifstreamRead (stream : Ifstream) (count : Nat)
  | ofstreamOpen (path : Bytes)
  | ofstreamWrite (block : Bytes)
  | ofstreamClose

/-- A `Bool` says whether the call succeeded (returned a handle that is not
NULL, 0, or an index); for `readRunning` it is the flag itself. -/
@[reducible] def Call.Answer : Call → Type
  | .semWait | .semPost | .clearRunning | .sleepFor _ => Unit
  | .sshKeyFree | .sshDisconnect | .sshFree | .sshGetError _ | .sftpFree => Unit
  | .sftpAttributesFree | .zipStrerror _ => Unit
  | .readRunning => Bool
  | .systemClockNow => Nat
  | .sshNew | .sshOptionsSet _ _ | .sshConnect | .sshPkiImportPrivkeyBase64 _ => Bool
  | .sshUserauthPublickey | .sftpNew | .sftpInit => Bool
  | .sftpOpendir _ | .sftpClosedir | .sftpOpen _ _ | .sftpClose => Bool
  | .zipSourceBuffer _ | .zipSourceFile _ | .zipFileAdd _ _ _ => Bool
  | .zipNameLocate _ _ _ | .zipFileSetEncryption _ _ _ | .unlink _ => Bool
  | .sftpReaddir => Readdir
  | .sftpRead count => SftpRead count
  | .sftpWrite block => Option (Fin (block.length + 1))
  | .zipOpen _ _ => Option (List Entry)
  | .zipClose _ => Zip.CloseResult
  | .stat _ => Option Nat
  | .ifstreamOpen _ => Option ZipFile
  | .ifstreamRead _ _ => DiskRead
  | .ofstreamOpen _ | .ofstreamWrite _ | .ofstreamClose => Bool

abbrev Function (R : Type) := Interaction.Routine Call.Answer R

end FileTransfer
