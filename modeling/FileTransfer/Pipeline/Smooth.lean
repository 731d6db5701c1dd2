import FileTransfer.Interaction.Script
import FileTransfer.Pipeline.World

/-!
# When nothing goes wrong

The answer every call gets if each library, disk and server operation that can
succeed does. `layout` gives the bytes of a written archive. A `zip_close`
fails only where no success is possible: it would have to read an encrypted
entry back without a password. An empty directory and empty files stand for the
data a server would send.
-/

namespace FileTransfer

set_option autoImplicit false

open Interaction

def World.smoothClose (layout : List Entry → Bytes) (archive : Zip) : Zip.CloseResult :=
  if archive.changed then
    match archive.write noFiles with
    | some entries => .written ⟨entries, layout entries⟩
    | none => .failed
  else .discarded

def World.smooth (layout : List Entry → Bytes) (world : World) : (call : Call) → call.Answer
  | .semWait | .semPost | .clearRunning | .sleepFor _ => ()
  | .sshKeyFree | .sshDisconnect | .sshFree | .sshGetError _ | .sftpFree => ()
  | .sftpAttributesFree | .zipStrerror _ => ()
  | .readRunning => world.running
  | .systemClockNow => (0 : Nat)
  | .sshNew | .sshOptionsSet _ _ | .sshConnect | .sshPkiImportPrivkeyBase64 _ => true
  | .sshUserauthPublickey | .sftpNew | .sftpInit => true
  | .sftpOpendir _ | .sftpClosedir | .sftpOpen _ _ | .sftpClose => true
  | .zipSourceBuffer _ | .zipSourceFile _ | .zipFileAdd _ _ _ => true
  | .zipNameLocate _ _ _ | .zipFileSetEncryption _ _ _ => true
  | .unlink _ => world.localZip.isSome
  | .sftpReaddir => Readdir.eof
  | .sftpRead _ => .eof
  | .sftpWrite block => some ⟨block.length, Nat.lt_succ_self _⟩
  | .zipOpen _ create =>
      match world.localZip with
      | some file => some file.entries
      | none => if create then some [] else none
  | .zipClose archive => World.smoothClose layout archive
  | .stat _ => world.fileSize
  | .ifstreamOpen _ => world.localZip
  | .ifstreamRead _ _ => DiskRead.complete
  | .ofstreamOpen _ | .ofstreamWrite _ | .ofstreamClose => true

theorem smooth_responds (layout : List Entry → Bytes) (world : World) (call : Call)
    (free : call = .semWait → 0 < world.zipSemaphore) :
    (world.respond call (world.smooth layout call)).isSome = true := by
  cases call with
  | semWait => simp [World.respond, free rfl]
  | zipOpen path create =>
      cases present : world.localZip with
      | some file => simp [World.smooth, World.respond, World.opens, present]
      | none => cases create <;> simp [World.smooth, World.respond, World.opens, present]
  | zipClose archive =>
      simp only [World.smooth, World.smoothClose]
      cases changes : archive.changed with
      | false => simp [World.respond, Zip.closes, changes]
      | true =>
          cases writes : archive.write noFiles <;>
            simp [World.respond, Zip.closes, changes, writes]
  | unlink path =>
      cases present : world.localZip <;> simp [World.smooth, World.respond, present]
  | ifstreamOpen path =>
      cases present : world.localZip <;> simp [World.smooth, World.respond, present]
  | readRunning | stat => simp [World.smooth, World.respond]
  | sftpOpen path mode => cases mode <;> rfl
  | _ => rfl

-- Lines for one thread whose calls are answered as when nothing goes wrong, and
-- lines with what a clock or a server has to supply.

/-- The archive as its entries one after the other, for scripts. -/
def plainLayout (entries : List Entry) : Bytes :=
  entries.flatMap fun entry => entry.name ++ entry.content

def downloadSmoothly (layout : List Entry → Bytes) (count : Nat) : List (Cue libraryEnv) :=
  List.replicate count (.left fun world call => some (world.smooth layout call))

def uploadSmoothly (layout : List Entry → Bytes) (count : Nat) : List (Cue libraryEnv) :=
  List.replicate count (.right fun world call => some (world.smooth layout call))

def tellsTime (time : Nat) : Cue libraryEnv :=
  .left fun _ call => match call with
    | .systemClockNow => some time
    | _ => none

def lists (name : Bytes) (mtime : Nat) : Cue libraryEnv :=
  .left fun _ call => match call with
    | .sftpReaddir => some (.entry ⟨name, .regular, mtime⟩)
    | _ => none

def serves (bytes : Bytes) : Cue libraryEnv :=
  .left fun _ call => match call with
    | .sftpRead count =>
        if fits : bytes ≠ [] ∧ bytes.length ≤ count then some (.data ⟨bytes, fits⟩) else none
    | _ => none

-- The same for a function called by itself.

def smoothly (count : Nat) : List (World → (call : Call) → Option call.Answer) :=
  List.replicate count fun world call => some (world.smooth plainLayout call)

def sends (bytes : Bytes) : World → (call : Call) → Option call.Answer :=
  fun _ call => match call with
    | .sftpRead count =>
        if fits : bytes ≠ [] ∧ bytes.length ≤ count then some (.data ⟨bytes, fits⟩) else none
    | _ => none

def breaksOff : World → (call : Call) → Option call.Answer :=
  fun _ call => match call with
    | .ifstreamRead _ _ => some DiskRead.error
    | _ => none

def refusesClose : World → (call : Call) → Option call.Answer :=
  fun _ call => match call with
    | .sftpClose => some false
    | _ => none

def takes (count : Nat) : World → (call : Call) → Option call.Answer :=
  fun _ call => match call with
    | .sftpWrite block =>
        if within : count < block.length + 1 then some (some ⟨count, within⟩) else none
    | _ => none

def oneEntry : World :=
  ⟨1, true, some ⟨[⟨ascii "a", ascii "first", .aes256 zipPassphrase⟩], ascii "afirst"⟩, none, []⟩

/-- Both threads up to the head of their loops. -/
def bothSetUp (layout : List Entry → Bytes) : List (Cue libraryEnv) :=
  downloadSmoothly layout 11 ++ uploadSmoothly layout 10

/-- An iteration of the downloader up to the `sem_wait` of `append_to_zip`: one
file is listed and read. `lookup` is the number of calls `file_exists_in_zip`
makes, 1 without an archive and 3 with one. -/
def fetches (layout : List Entry → Bytes) (name : Bytes) (blocks : List Bytes)
    (mtime now lookup : Nat) : List (Cue libraryEnv) :=
  downloadSmoothly layout 1 ++ [tellsTime now] ++ downloadSmoothly layout 1 ++
    [lists name mtime] ++ downloadSmoothly layout (lookup + 5) ++ blocks.map serves ++
    downloadSmoothly layout 2

def appends (layout : List Entry → Bytes) : List (Cue libraryEnv) := downloadSmoothly layout 8

def checks (layout : List Entry → Bytes) : List (Cue libraryEnv) := uploadSmoothly layout 3

/-- `upload_file` as a whole, of an archive that fits in one block. -/
def uploads (layout : List Entry → Bytes) : List (Cue libraryEnv) := uploadSmoothly layout 8

def startState (localZip : Option ZipFile) : PipelineState libraryEnv :=
  ⟨some downloadThread.start, some uploadThread.start, ⟨1, true, localZip, none, []⟩⟩

theorem start_state_started (localZip : Option ZipFile) :
    Started localZip (startState localZip) := ⟨rfl, rfl, rfl, rfl, rfl⟩

end FileTransfer
