import FileTransfer.Functions.CreateZip
import FileTransfer.OldProgram.Main

/-!
# The disk under the old program

The local disk with the archive and the downloaded files, and the file on the
second host. Everything else may answer as it likes.
-/

namespace FileTransfer.Old

set_option autoImplicit false

open Interaction

/-- `reads` gives the entries libzip reads from the bytes of a downloaded file,
`serves` says what the first host can list. With `plenty` libzip has memory for
every change it notes, with `readable` no read of the local disk fails. -/
structure Setting where
  reads : Bytes → List Entry
  serves : Attributes → Bool
  plenty : Bool
  readable : Bool

/-- The local disk, the path an open `ofstream` writes to, and the bytes of the
file on the second host. `unanswered` tells for each call on that file that is
yet to fail how much of it the server carries out all the same. -/
structure World where
  disk : LocalDisk
  ofs : Option Bytes
  remote : Bytes
  unanswered : List Nat

def World.entries (world : World) : List Entry := world.disk.entries localZipPath

def Setting.respond (setting : Setting) (world : World) :
    (call : Call) → call.Answer → Option World
  | .sftpReaddir, .entry attributes => if setting.serves attributes then some world else none
  | .ofstreamOpen path, true =>
      if short : (baseName path).length ≤ 255 then
        some { world with
          disk := world.disk.store path ⟨setting.reads [], []⟩ short
          ofs := some path }
      else none
  | .ofstreamWrite block, true =>
      world.ofs.bind fun path => (world.disk.files path).bind fun file =>
        if short : (baseName path).length ≤ 255 then
          some { world with
            disk := world.disk.store path
              ⟨setting.reads (file.bytes ++ block), file.bytes ++ block⟩ short }
        else none
  | .ofstreamClose, _ => some { world with ofs := none }
  | .zipOpen path create, opened =>
      (world.disk.respond localZipPath (.zipOpen path create) opened).map fun disk =>
        { world with disk := disk }
  | .zipClose archive, closed =>
      (world.disk.respond localZipPath (.zipClose archive) closed).map fun disk =>
        { world with disk := disk }
  | .unlink path, deleted =>
      (world.disk.respond localZipPath (.unlink path) deleted).map fun disk =>
        { world with disk := disk }
  | .ifstreamOpen path, some file =>
      if world.disk.files path = some file then some world else none
  | .sftpOpen _ _ .truncate, true => some { world with remote := [] }
  | .sftpOpen _ _ .truncate, false =>
      some { world with
        remote := if world.unanswered.headD 0 = 0 then world.remote else []
        unanswered := world.unanswered.tail }
  | .sftpWrite block, some count =>
      some { world with remote := world.remote ++ block.take count.val }
  | .sftpWrite block, none =>
      some { world with
        remote := world.remote ++ block.take (world.unanswered.headD 0)
        unanswered := world.unanswered.tail }
  | .zipFileAdd _ _ _, memory | .zipNameLocate _ _ _, memory
  | .zipFileSetEncryption _ _ _, memory =>
      if memory || !setting.plenty then some world else none
  | .ifstreamRead _ _, read => if read.isComplete || !setting.readable then some world else none
  | _, _ => some world

abbrev env (setting : Setting) : Env Call.Answer where
  World := World
  Move := Empty
  respond := setting.respond
  move := nofun

/-- No file the first host lists is saved over the archive. -/
def Setting.Apart (setting : Setting) : Prop :=
  ∀ attributes, setting.serves attributes = true →
    localFile (remote1CollectDir ++ attributes.name) ≠ localZipPath

section

variable {setting : Setting} {world after : World} {path : Bytes}

def Call.Spares : Call → Prop
  | .ofstreamOpen _ | .ofstreamWrite _ | .zipClose _ | .unlink _ => False
  | _ => True

theorem respond_disk {call : Call} {answer : call.Answer} (spares : call.Spares)
    (responds : setting.respond world call answer = some after) : after.disk = world.disk := by
  cases call <;> simp only [Call.Spares] at spares
  case sftpReaddir =>
    cases answer <;> simp only [Setting.respond] at responds
    case entry => split at responds <;> cases responds; rfl
    all_goals cases responds; rfl
  case zipOpen path create =>
    simp only [Setting.respond, Option.map_eq_some_iff] at responds
    obtain ⟨disk, opens, rfl⟩ := responds
    cases answer with
    | none => cases opens; rfl
    | some opened =>
        simp only [LocalDisk.respond] at opens
        split at opens <;> cases opens
        rfl
  case ifstreamOpen path =>
    cases answer <;> simp only [Setting.respond] at responds
    case none => cases responds; rfl
    case some => split at responds <;> cases responds; rfl
  case sftpOpen remote path mode =>
    cases mode <;> cases answer <;> cases responds <;> rfl
  case sftpWrite block => cases answer <;> cases responds <;> rfl
  case zipFileAdd | zipNameLocate | zipFileSetEncryption | ifstreamRead =>
    simp only [Setting.respond] at responds
    split at responds <;> cases responds
    rfl
  all_goals cases responds; rfl

def Call.OpensStream : Call → Prop
  | .ofstreamOpen _ => True
  | _ => False

theorem respond_ofs {call : Call} {answer : call.Answer} (other : ¬ call.OpensStream)
    (responds : setting.respond world call answer = some after) :
    after.ofs = world.ofs ∨ after.ofs = none := by
  cases call
  case ofstreamOpen path => exact absurd trivial other
  case sftpReaddir =>
    cases answer <;> simp only [Setting.respond] at responds
    case entry => split at responds <;> cases responds; exact .inl rfl
    all_goals cases responds; exact .inl rfl
  case ofstreamWrite block =>
    cases answer with
    | false => cases responds; exact .inl rfl
    | true =>
        simp only [Setting.respond, Option.bind_eq_some_iff] at responds
        obtain ⟨path, writes, file, there, responds⟩ := responds
        split at responds <;> cases responds
        exact .inl rfl
  case ofstreamClose => cases responds; exact .inr rfl
  case zipOpen | zipClose | unlink =>
    simp only [Setting.respond, Option.map_eq_some_iff] at responds
    obtain ⟨disk, _, rfl⟩ := responds
    exact .inl rfl
  case ifstreamOpen path =>
    cases answer <;> simp only [Setting.respond] at responds
    case none => cases responds; exact .inl rfl
    case some => split at responds <;> cases responds; exact .inl rfl
  case sftpOpen remote path mode =>
    cases mode <;> cases answer <;> cases responds <;> exact .inl rfl
  case sftpWrite block => cases answer <;> cases responds <;> exact .inl rfl
  case zipFileAdd | zipNameLocate | zipFileSetEncryption | ifstreamRead =>
    simp only [Setting.respond] at responds
    split at responds <;> cases responds
    exact .inl rfl
  all_goals cases responds; exact .inl rfl

end

end FileTransfer.Old
