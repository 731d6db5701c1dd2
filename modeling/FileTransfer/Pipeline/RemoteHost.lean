import FileTransfer.Interaction.Script
import FileTransfer.Pipeline.SemaphoreDiscipline
import FileTransfer.Pipeline.Smooth

/-!
# The first host and its clock

`REMOTE1_COLLECT_DIR` on a host that shares its clock with the program. At any
time the clock may advance by a second and a file may be written or removed. A
directory stream shows what was there at some time since it was opened, and
ends only after everything that was there all the time. What a file is opened
with can be read to its end, whatever becomes of the file. Everything else is
as `libraryEnv` has it.
-/

namespace FileTransfer

set_option autoImplicit false

open Interaction

structure RemoteFile where
  name : FileName
  mtime : Nat
  content : Bytes
  deriving DecidableEq

namespace RemoteFile

def attributes (file : RemoteFile) : Attributes := ⟨file.name.val, .regular, file.mtime⟩

def path (file : RemoteFile) : Bytes := remote1CollectDir ++ file.name.val

@[simp] theorem attributes_full_path (file : RemoteFile) :
    file.attributes.fullPath = file.path := rfl

theorem base_name_path (file : RemoteFile) : baseName file.path = file.name.val :=
  base_name_collected file.name.val file.name.property.2.1

end RemoteFile

/-- The stream last opened: the files there when it was opened, those there at
some time since, those returned, and whether its end has been reached. -/
structure Directory where
  opened : List RemoteFile
  visible : List RemoteFile
  shown : List RemoteFile
  complete : Bool
  deriving DecidableEq

/-- `files` are there now; `written` is everything ever written. `reading` is
what is left of the file last opened for reading. -/
structure HostWorld where
  base : World
  clock : Nat
  files : List RemoteFile
  written : List RemoteFile
  directory : Directory
  reading : Bytes
  deriving DecidableEq

namespace HostWorld

/-- An entry a stream can return: a file, or anything that is not one. -/
def readEntry (world : HostWorld) (attributes : Attributes) : Option HostWorld :=
  if attributes.type = .regular then
    (world.directory.visible.find? fun file => file.attributes = attributes).map fun file =>
      { world with directory := { world.directory with shown := file :: world.directory.shown } }
  else some world

/-- Nothing that has been there all the time is left to return. -/
def exhausted (world : HostWorld) : Bool :=
  world.directory.opened.all fun file =>
    file ∉ world.files || file ∈ world.directory.shown

def serve (world : HostWorld) : (call : Call) → call.Answer → Option HostWorld
  | .systemClockNow, time => if time = world.clock then some world else none
  | .sftpOpendir _, true =>
      some { world with directory := ⟨world.files, world.files, [], false⟩ }
  | .sftpReaddir, .entry attributes => world.readEntry attributes
  | .sftpReaddir, .eof =>
      if world.exhausted then
        some { world with directory := { world.directory with complete := true } }
      else none
  | .sftpOpen path .read, true =>
      (world.files.find? fun file => file.path = path).map fun file =>
        { world with reading := file.content }
  | .sftpRead _, .data chunk =>
      if chunk.val <+: world.reading then
        some { world with reading := world.reading.drop chunk.val.length }
      else none
  | .sftpRead _, .eof => if world.reading = [] then some world else none
  | _, _ => some world

def respond (world : HostWorld) (call : Call) (answer : call.Answer) : Option HostWorld :=
  (world.base.respond call answer).bind fun base => { world with base := base }.serve call answer

end HostWorld

inductive HostMove where
  | sigint
  | tick
  | write (name : FileName) (content : Bytes)
  | remove (name : FileName)

def HostWorld.write (world : HostWorld) (file : RemoteFile) : HostWorld :=
  { world with
    files := file :: world.files.filter fun other => other.name ≠ file.name
    written := file :: world.written
    directory := { world.directory with visible := file :: world.directory.visible } }

def HostWorld.move (world : HostWorld) : HostMove → Option HostWorld
  | .sigint => (world.base.interrupt .sigint).map fun base => { world with base := base }
  | .tick => some { world with clock := world.clock + 1 }
  | .write name content => some (world.write ⟨name, world.clock, content⟩)
  | .remove name =>
      some { world with files := world.files.filter fun file => file.name ≠ name }

abbrev hostEnv : Env Call.Answer where
  World := HostWorld
  Move := HostMove
  respond := HostWorld.respond
  move := HostWorld.move

/-- `main` starts the threads; the directory is still empty. -/
def HostStarted (localZip : Option ZipFile) (state : PipelineState hostEnv) : Prop :=
  state.left = some downloadThread.start ∧ state.right = some uploadThread.start ∧
    (state.world.base.zipSemaphore = 1 ∧ state.world.base.running = true ∧
      state.world.base.localZip = localZip) ∧
    state.world.files = [] ∧ state.world.written = [] ∧
      state.world.directory = ⟨[], [], [], false⟩

theorem HostWorld.serve_base {world world' : HostWorld} {call : Call} {answer : call.Answer}
    (serves : world.serve call answer = some world') : world'.base = world.base := by
  unfold serve at serves
  split at serves
  · split at serves <;> cases serves
    rfl
  · cases serves
    rfl
  · unfold readEntry at serves
    split at serves
    · obtain ⟨file, _, rfl⟩ := Option.map_eq_some_iff.mp serves
      rfl
    · cases serves
      rfl
  · split at serves <;> cases serves
    rfl
  · obtain ⟨file, _, rfl⟩ := Option.map_eq_some_iff.mp serves
    rfl
  · split at serves <;> cases serves
    rfl
  · split at serves <;> cases serves
    rfl
  · cases serves
    rfl

theorem HostWorld.respond_base {world world' : HostWorld} {call : Call} {answer : call.Answer}
    (responds : world.respond call answer = some world') :
    world.base.respond call answer = some world'.base := by
  obtain ⟨base, answered, serves⟩ := Option.bind_eq_some_iff.mp responds
  rw [answered, serve_base serves]

def hostProjection : Projection hostEnv libraryEnv where
  world := HostWorld.base
  visible
    | .sigint => some .sigint
    | .tick | .write _ _ | .remove _ => none
  responds := HostWorld.respond_base
  moves := by
    intro before after move move' moves seen
    cases move with
    | sigint =>
        cases seen
        cases moves
        rfl
    | tick | write | remove => cases seen
  stutters := by
    intro before after move moves unseen
    cases move with
    | sigint => cases unseen
    | tick | write | remove =>
        cases moves
        rfl

theorem host_started {localZip : Option ZipFile} {state : PipelineState hostEnv}
    (started : HostStarted localZip state) : Started localZip (hostProjection.state state) := by
  obtain ⟨left, right, ⟨semaphore, running, present⟩, _⟩ := started
  exact ⟨left, right, semaphore, running, present⟩

theorem host_projects {localZip : Option ZipFile} {ok : PipelineCondition hostEnv}
    {trace : List (PipelineEvent hostEnv)} {state : PipelineState hostEnv}
    (run : PipelineRun hostEnv ok (HostStarted localZip) trace state) :
    PipelineRun libraryEnv (anyStep _ _ _) (Started localZip) (hostProjection.trace trace)
      (hostProjection.state state) :=
  run.project hostProjection (fun _ => host_started) fun _ _ _ _ _ _ => trivial

structure HostWorld.Kept (world world' : HostWorld) : Prop where
  clock : world'.clock = world.clock
  files : world'.files = world.files
  written : world'.written = world.written

def Call.listsDirectory : Call → Bool
  | .sftpOpendir _ | .sftpReaddir => true
  | _ => false

theorem HostWorld.serve_keeps {world world' : HostWorld} {call : Call} {answer : call.Answer}
    (serves : world.serve call answer = some world') :
    world.Kept world' ∧ (call.listsDirectory = false → world'.directory = world.directory) := by
  unfold serve at serves
  split at serves
  · split at serves <;> cases serves
    exact ⟨⟨rfl, rfl, rfl⟩, fun _ => rfl⟩
  · cases serves
    exact ⟨⟨rfl, rfl, rfl⟩, nofun⟩
  · unfold readEntry at serves
    split at serves
    · obtain ⟨file, _, rfl⟩ := Option.map_eq_some_iff.mp serves
      exact ⟨⟨rfl, rfl, rfl⟩, nofun⟩
    · cases serves
      exact ⟨⟨rfl, rfl, rfl⟩, nofun⟩
  · split at serves <;> cases serves
    exact ⟨⟨rfl, rfl, rfl⟩, nofun⟩
  · obtain ⟨file, _, rfl⟩ := Option.map_eq_some_iff.mp serves
    exact ⟨⟨rfl, rfl, rfl⟩, fun _ => rfl⟩
  · split at serves <;> cases serves
    exact ⟨⟨rfl, rfl, rfl⟩, fun _ => rfl⟩
  · split at serves <;> cases serves
    exact ⟨⟨rfl, rfl, rfl⟩, fun _ => rfl⟩
  · cases serves
    exact ⟨⟨rfl, rfl, rfl⟩, fun _ => rfl⟩

theorem HostWorld.respond_kept {world world' : HostWorld} {call : Call} {answer : call.Answer}
    (responds : world.respond call answer = some world') : world.Kept world' := by
  obtain ⟨base, _, serves⟩ := Option.bind_eq_some_iff.mp responds
  obtain ⟨clock, files, written⟩ := (serve_keeps serves).1
  exact ⟨clock, files, written⟩

theorem HostWorld.respond_directory {world world' : HostWorld} {call : Call}
    {answer : call.Answer} (responds : world.respond call answer = some world')
    (quiet : call.listsDirectory = false) : world'.directory = world.directory := by
  obtain ⟨base, _, serves⟩ := Option.bind_eq_some_iff.mp responds
  exact (serve_keeps serves).2 quiet

theorem HostWorld.respond_now {world world' : HostWorld} {time : Nat}
    (responds : world.respond .systemClockNow time = some world') : time = world.clock := by
  obtain ⟨base, _, serves⟩ := Option.bind_eq_some_iff.mp responds
  simp only [serve] at serves
  split at serves
  · assumption
  · cases serves

theorem HostWorld.respond_opendir {world world' : HostWorld} {path : Bytes} {opens : Bool}
    (responds : world.respond (.sftpOpendir path) opens = some world') :
    world'.directory = if opens then ⟨world.files, world.files, [], false⟩
      else world.directory := by
  cases opens <;> cases responds <;> rfl

theorem HostWorld.respond_entry {world world' : HostWorld} {attributes : Attributes}
    (responds : world.respond .sftpReaddir (.entry attributes) = some world') :
    (∃ file ∈ world.directory.visible, attributes = file.attributes ∧
      world'.directory = { world.directory with shown := file :: world.directory.shown }) ∨
    (attributes.type ≠ .regular ∧ world'.directory = world.directory) := by
  obtain ⟨base, _, serves⟩ := Option.bind_eq_some_iff.mp responds
  simp only [serve, readEntry] at serves
  split at serves
  · obtain ⟨file, found, rfl⟩ := Option.map_eq_some_iff.mp serves
    have same : file.attributes = attributes := by simpa using List.find?_some found
    exact .inl ⟨file, List.mem_of_find?_eq_some found, same.symm, rfl⟩
  · rename_i other
    cases serves
    exact .inr ⟨other, rfl⟩

theorem HostWorld.respond_eof {world world' : HostWorld}
    (responds : world.respond .sftpReaddir .eof = some world') :
    (∀ file ∈ world.directory.opened, file ∈ world.files → file ∈ world.directory.shown) ∧
      world'.directory = { world.directory with complete := true } := by
  obtain ⟨base, _, serves⟩ := Option.bind_eq_some_iff.mp responds
  simp only [serve] at serves
  split at serves
  · rename_i all
    cases serves
    refine ⟨?_, rfl⟩
    intro file opened there
    have returned := List.all_eq_true.mp all file opened
    simpa [there] using returned
  · cases serves

theorem HostWorld.respond_readdir_error {world world' : HostWorld}
    (responds : world.respond .sftpReaddir .error = some world') :
    world'.directory = world.directory := by
  cases responds
  rfl

theorem upload_lists_nothing (pc : UploadPc) :
    (pc.call remoteHost2 remote2DestPath).listsDirectory = false := by
  cases pc with
  | session pc | sftp pc | upload pc => cases pc <;> rfl
  | _ => rfl

/-- The answers when nothing goes wrong; a directory is listed in the order the
files were written, newest first. -/
def HostWorld.smooth (world : HostWorld) : (call : Call) → call.Answer
  | .systemClockNow => world.clock
  | .sftpReaddir =>
      match world.directory.opened.find? fun file =>
          file ∈ world.files && file ∉ world.directory.shown with
      | some file => .entry file.attributes
      | none => .eof
  | .sftpOpen path .read => (world.files.find? fun file => file.path = path).isSome
  | .sftpRead count =>
      if fits : world.reading.take count ≠ [] ∧ (world.reading.take count).length ≤ count then
        .data ⟨world.reading.take count, fits⟩
      else .eof
  | call => world.base.smooth plainLayout call

def downloadCalls (count : Nat) : List (Cue hostEnv) :=
  List.replicate count (.left fun world call => some (world.smooth call))

def uploadCalls (count : Nat) : List (Cue hostEnv) :=
  List.replicate count (.right fun world call => some (world.smooth call))

def seconds (count : Nat) : List (Cue hostEnv) := List.replicate count (.move .tick)

def writes (name : FileName) (content : Bytes) : List (Cue hostEnv) :=
  [.move (.write name content)]

def fileA : FileName := ⟨ascii "a", by decide⟩

def fileB : FileName := ⟨ascii "b", by decide⟩

def hostStart : PipelineState hostEnv :=
  ⟨some downloadThread.start, some uploadThread.start,
    ⟨⟨1, true, none, none, []⟩, 0, [], [], ⟨[], [], [], false⟩, []⟩⟩

theorem host_start_started : HostStarted none hostStart :=
  ⟨rfl, rfl, ⟨rfl, rfl, rfl⟩, rfl, rfl, rfl⟩

end FileTransfer
