import FileTransfer.Program.Calls

/-!
# `create_ssh_session` and `create_sftp_session`

Both return whether the handle is not NULL. Their points are the calls in the
order of the source; a point shared by several error branches is one whose
continuation is the same in all of them.
-/

namespace FileTransfer

set_option autoImplicit false

open Interaction (Next)

inductive SshSessionPc where
  | sshNew
  | setUser
  | setHost
  | setAcceptedTypes
  | errorOptions
  | sshConnect
  | errorConnect
  | importPrivkey
  | errorImport
  | userauth
  | errorUserauth
  | keyFreeRejected
  | disconnectRejected
  | sshFree
  | keyFree
  deriving DecidableEq

def SshSessionPc.call (host : Bytes) : SshSessionPc → Call
  | .sshNew => .sshNew
  | .setUser => .sshOptionsSet .user (ascii "kali")
  | .setHost => .sshOptionsSet .host host
  | .setAcceptedTypes =>
      .sshOptionsSet .publickeyAcceptedTypes (ascii "ssh-rsa,rsa-sha2-256,rsa-sha2-512")
  | .errorOptions | .errorConnect | .errorImport | .errorUserauth => .sshGetError .session
  | .sshConnect => .sshConnect
  | .importPrivkey => .sshPkiImportPrivkeyBase64 privateKey
  | .userauth => .sshUserauthPublickey
  | .keyFreeRejected | .keyFree => .sshKeyFree
  | .disconnectRejected => .sshDisconnect
  | .sshFree => .sshFree

def SshSessionPc.next (host : Bytes) :
    (pc : SshSessionPc) → (pc.call host).Answer → Next SshSessionPc Bool
  | .sshNew, false => .done false
  | .sshNew, true => .goto .setUser
  | .setUser, _ => .goto .setHost
  | .setHost, _ => .goto .setAcceptedTypes
  | .setAcceptedTypes, false => .goto .errorOptions
  | .setAcceptedTypes, true => .goto .sshConnect
  -- a refused option is reported and the connection tried all the same
  | .errorOptions, _ => .goto .sshConnect
  | .sshConnect, false => .goto .errorConnect
  | .sshConnect, true => .goto .importPrivkey
  | .errorConnect, _ => .goto .sshFree
  | .importPrivkey, false => .goto .errorImport
  | .importPrivkey, true => .goto .userauth
  | .errorImport, _ => .goto .sshFree
  | .userauth, false => .goto .errorUserauth
  | .userauth, true => .goto .keyFree
  | .errorUserauth, _ => .goto .keyFreeRejected
  | .keyFreeRejected, _ => .goto .disconnectRejected
  | .disconnectRejected, _ => .goto .sshFree
  | .sshFree, _ => .done false
  | .keyFree, _ => .done true

abbrev createSshSession (host : Bytes) : Function Bool where
  Pc := SshSessionPc
  start := .sshNew
  call := SshSessionPc.call host
  next := SshSessionPc.next host

inductive SftpSessionPc where
  | sftpNew
  | errorNew
  | sftpInit
  | errorInit
  | sftpFree
  deriving DecidableEq

def SftpSessionPc.call : SftpSessionPc → Call
  | .sftpNew => .sftpNew
  | .errorNew | .errorInit => .sshGetError .session
  | .sftpInit => .sftpInit
  | .sftpFree => .sftpFree

def SftpSessionPc.next : (pc : SftpSessionPc) → pc.call.Answer → Next SftpSessionPc Bool
  | .sftpNew, false => .goto .errorNew
  | .sftpNew, true => .goto .sftpInit
  | .errorNew, _ => .done false
  | .sftpInit, false => .goto .errorInit
  | .sftpInit, true => .done true
  | .errorInit, _ => .goto .sftpFree
  | .sftpFree, _ => .done false

abbrev createSftpSession : Function Bool where
  Pc := SftpSessionPc
  start := .sftpNew
  call := SftpSessionPc.call
  next := SftpSessionPc.next

end FileTransfer
