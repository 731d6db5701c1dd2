import FileTransfer.Program.Calls

/-!
# `file_exists_in_zip`, `list_new_files` and `check_for_new_files`
-/

namespace FileTransfer

set_option autoImplicit false

open Interaction (Next)

inductive FileExistsPc where
  | zipOpen
  | zipNameLocate (opened : List Entry)
  | zipClose (opened : List Entry) (index : Option Nat)
  deriving DecidableEq

def FileExistsPc.call (zipPath filename : Bytes) : FileExistsPc → Call
  | .zipOpen => .zipOpen zipPath false
  | .zipNameLocate opened => .zipNameLocate (.opened opened) filename .guess
  | .zipClose opened _ => .zipClose (.opened opened)

def FileExistsPc.next (zipPath filename : Bytes) :
    (pc : FileExistsPc) → (pc.call zipPath filename).Answer → Next FileExistsPc Bool
  | .zipOpen, none => .done false
  | .zipOpen, some opened => .goto (.zipNameLocate opened)
  | .zipNameLocate opened, false => .goto (.zipClose opened none)
  | .zipNameLocate opened, true =>
      .goto (.zipClose opened ((Zip.opened opened).nameLocate filename .guess))
  | .zipClose _ index, _ => .done index.isSome

abbrev fileExistsInZip (zipPath filename : Bytes) : Function Bool where
  Pc := FileExistsPc
  start := .zipOpen
  call := FileExistsPc.call zipPath filename
  next := FileExistsPc.next zipPath filename

inductive ListPc where
  | sftpOpendir
  | errorOpendir
  | sftpReaddir (newFiles : List Bytes)
  | fileExists (newFiles : List Bytes) (attributes : Attributes) (pc : FileExistsPc)
  | sftpAttributesFree (newFiles : List Bytes)
  | sftpClosedir (newFiles : List Bytes)
  deriving DecidableEq

def ListPc.call (path : Bytes) : ListPc → Call
  | .sftpOpendir => .sftpOpendir path
  -- the SFTP handle is passed where a session is expected
  | .errorOpendir => .sshGetError .sftp
  | .sftpReaddir _ => .sftpReaddir
  | .fileExists _ attributes pc => pc.call localZipPath attributes.name
  | .sftpAttributesFree _ => .sftpAttributesFree
  | .sftpClosedir _ => .sftpClosedir

def Attributes.isNew (attributes : Attributes) (lastRun : Nat) : Bool :=
  attributes.type = .regular && lastRun < attributes.mtime

def Attributes.fullPath (attributes : Attributes) : Bytes :=
  remote1CollectDir ++ attributes.name

def ListPc.next (path : Bytes) (lastRun : Nat) :
    (pc : ListPc) → (pc.call path).Answer → Next ListPc (Bool × List Bytes)
  | .sftpOpendir, false => .goto .errorOpendir
  | .sftpOpendir, true => .goto (.sftpReaddir [])
  | .errorOpendir, _ => .done (false, [])
  | .sftpReaddir newFiles, .entry attributes =>
      if attributes.isNew lastRun then .goto (.fileExists newFiles attributes .zipOpen)
      else .goto (.sftpAttributesFree newFiles)
  | .sftpReaddir newFiles, .eof => .goto (.sftpClosedir newFiles)
  | .sftpReaddir newFiles, .error => .goto (.sftpClosedir newFiles)
  | .fileExists newFiles attributes pc, answer =>
      match pc.next localZipPath attributes.name answer with
      | .goto pc' => .goto (.fileExists newFiles attributes pc')
      | .done true => .goto (.sftpAttributesFree newFiles)
      | .done false => .goto (.sftpAttributesFree (newFiles ++ [attributes.fullPath]))
  | .sftpAttributesFree newFiles, _ => .goto (.sftpReaddir newFiles)
  | .sftpClosedir newFiles, _ => .done (!newFiles.isEmpty, newFiles)

/-- The result is the returned flag and `new_files` as passed out. -/
abbrev listNewFiles (path : Bytes) (lastRun : Nat) : Function (Bool × List Bytes) where
  Pc := ListPc
  start := .sftpOpendir
  call := ListPc.call path
  next := ListPc.next path lastRun

/-- What `check_for_new_files` makes of the result of `list_new_files`; `none`
is `nullopt`. -/
def checkForNewFiles (listed : Bool × List Bytes) : Option (List Bytes) :=
  if !listed.1 then none
  else if listed.2.isEmpty then none
  else some listed.2

end FileTransfer
