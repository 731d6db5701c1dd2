import FileTransfer.Archive.Names

/-!
# Archives and libzip handles

What the program does with libzip 1.9.2: `zip_open`, `zip_name_locate`,
`zip_file_add` without `ZIP_FL_OVERWRITE`, `zip_file_set_encryption` with a
password, and `zip_close`. Changes are only noted in the handle; `zip_close`
writes them to a temporary file and renames it. A call that can also fail for
want of memory or on an I/O error takes that outcome as an argument.
-/

namespace FileTransfer

set_option autoImplicit false

/-- `encryption_method` of an entry, with the password it was stored under. -/
inductive Encryption where
  | none
  | aes256 (password : Bytes)
  deriving DecidableEq

structure Entry where
  name : Bytes
  content : Bytes
  encryption : Encryption
  deriving DecidableEq

/-- An archive on disk: its bytes, and the entries libzip reads from them. How
the bytes come from the entries (compression, salts, dates) is left open. -/
structure ZipFile where
  entries : List Entry
  bytes : Bytes
  deriving DecidableEq

/-- Where `zip_close` takes the data of a new entry from: a buffer handed over
by `zip_source_buffer`, or a file that is opened only then. -/
inductive Source where
  | buffer (content : Bytes)
  | file (path : Bytes)
  deriving DecidableEq

/-- `zip_entry`: one that was in the file, or one that was added. `change` is
set once `zip_file_set_encryption` has noted a method and a password. -/
inductive ZipEntry where
  | original (entry : Entry) (change : Option Encryption)
  | added (name : Bytes) (source : Source) (change : Option Encryption)
  deriving DecidableEq

def ZipEntry.name : ZipEntry → Bytes
  | .original entry _ => entry.name
  | .added name _ _ => name

def ZipEntry.setEncryption (encryption : Encryption) : ZipEntry → ZipEntry
  | .original entry _ => .original entry (some encryption)
  | .added name source _ => .added name source (some encryption)

def ZipEntry.hasChanges : ZipEntry → Bool
  | .original _ change => change.isSome
  | .added _ _ _ => true

/-- What `zip_close` writes for an entry. The data of an original entry has to
be read back when its encryption is set; no default password is ever set, so
for an encrypted one that fails with `ZIP_ER_NOPASSWD`. -/
def ZipEntry.write (readFile : Bytes → Option Bytes) : ZipEntry → Option Entry
  | .original entry none => some entry
  | .original entry (some encryption) =>
      if entry.encryption = .none then some { entry with encryption := encryption }
      else none
  | .added name (.buffer content) change =>
      some ⟨name, content, change.getD .none⟩
  | .added name (.file path) change =>
      (readFile path).map fun content => ⟨name, content, change.getD .none⟩

structure Zip where
  entry : List ZipEntry
  deriving DecidableEq

namespace Zip

/-- The handle `zip_open` returns for a file with these entries; for an absent
file and `ZIP_CREATE` there are none. -/
def opened (entries : List Entry) : Zip := ⟨entries.map (.original · none)⟩

def originals (archive : Zip) : List Entry :=
  archive.entry.filterMap fun entry => match entry with
    | .original entry _ => some entry
    | .added _ _ _ => none

def additions (archive : Zip) : List (Bytes × Source) :=
  archive.entry.filterMap fun entry => match entry with
    | .original _ _ => none
    | .added name source _ => some (name, source)

/-- `zip_name_locate`; `none` is -1. -/
def nameLocate (archive : Zip) (name : Bytes) (flags : NameFlags) : Option Nat :=
  (lookupName name flags).bind fun key =>
    archive.entry.findIdx? fun entry => entry.name = key

/-- `zip_file_add` with `ZIP_FL_ENC_UTF_8`; `none` is -1, with nothing added.
The check for an entry of the same name looks it up with flags 0. -/
def fileAdd (archive : Zip) (name : Bytes) (source : Source) (memory : Bool) : Option Zip :=
  match acceptedName name with
  | none => none
  | some kept =>
      if memory && (archive.nameLocate name .guess).isNone then
        some ⟨archive.entry ++ [.added kept source none]⟩
      else none

/-- `zip_file_set_encryption` with `ZIP_EM_AES_256` and a password; an index of
-1 is out of range. -/
def fileSetEncryption (archive : Zip) (index : Option Nat) (password : Bytes)
    (memory : Bool) : Option Zip :=
  match index with
  | none => none
  | some position =>
      if memory && position < archive.entry.length then
        some ⟨archive.entry.modify position (.setEncryption (.aes256 password))⟩
      else none

/-- `_zip_changed`; no entry is ever deleted and no comment ever set. -/
def changed (archive : Zip) : Bool := archive.entry.any (·.hasChanges)

def write (archive : Zip) (readFile : Bytes → Option Bytes) : Option (List Entry) :=
  archive.entry.mapM (·.write readFile)

/-- How a `zip_close` ends. An archive without changes is discarded and nothing
is written; this covers the archive without entries. -/
inductive CloseResult where
  | discarded
  | written (file : ZipFile)
  | failed
  deriving DecidableEq

/-- The ways a `zip_close` can end, `readFile` giving the files that sources
name. Writing and renaming the temporary file may always fail; it succeeds only
if every entry can be written. -/
def closes (archive : Zip) (readFile : Bytes → Option Bytes) : CloseResult → Bool
  | .discarded => !archive.changed
  | .written file => archive.changed && archive.write readFile = some file.entries
  | .failed => archive.changed

@[simp] theorem originals_opened (entries : List Entry) :
    (opened entries).originals = entries := by
  simp [opened, originals, List.filterMap_map]

@[simp] theorem additions_opened (entries : List Entry) :
    (opened entries).additions = [] := by
  simp [opened, additions, List.filterMap_map]

@[simp] theorem changed_opened (entries : List Entry) : (opened entries).changed = false := by
  simp [opened, changed, ZipEntry.hasChanges]

theorem closes_opened {entries : List Entry} {readFile : Bytes → Option Bytes}
    {result : CloseResult} (closing : (opened entries).closes readFile result = true) :
    result = .discarded := by
  cases result <;> simp_all [closes]

theorem name_located {entries : List Entry} {name : Bytes} {flags : NameFlags} {index : Nat}
    (located : (opened entries).nameLocate name flags = some index) :
    ∃ entry ∈ entries, lookupName name flags = some entry.name := by
  obtain ⟨key, looked, found⟩ := Option.bind_eq_some_iff.mp located
  obtain ⟨bound, matches', _⟩ := List.findIdx?_eq_some_iff_getElem.mp found
  obtain ⟨entry, there, same⟩ := List.mem_map.mp (List.getElem_mem bound)
  refine ⟨entry, there, looked.trans (congrArg some ?_)⟩
  rw [← same] at matches'
  exact (of_decide_eq_true matches').symm

theorem file_add_eq_some {archive archive' : Zip} {name : Bytes} {source : Source}
    {memory : Bool} :
    archive.fileAdd name source memory = some archive' ↔
      ∃ kept, acceptedName name = some kept ∧ memory = true ∧
        archive.nameLocate name .guess = none ∧
        archive' = ⟨archive.entry ++ [.added kept source none]⟩ := by
  unfold fileAdd
  cases accepted : acceptedName name with
  | none => simp
  | some kept =>
      cases memory <;> cases found : archive.nameLocate name .guess <;>
        simp [eq_comm]

theorem set_encryption_keeps {archive archive' : Zip} {index : Option Nat}
    {password : Bytes} {memory : Bool}
    (set : archive.fileSetEncryption index password memory = some archive') :
    archive'.originals = archive.originals ∧ archive'.additions = archive.additions := by
  obtain ⟨entries⟩ := archive
  cases index with
  | none => simp [fileSetEncryption] at set
  | some position =>
      simp only [fileSetEncryption] at set
      split at set
      · simp only [Option.some.injEq] at set
        subst set
        clear * -
        simp only [originals, additions]
        induction entries generalizing position with
        | nil => simp
        | cons head tail ih =>
            cases position with
            | zero => cases head <;> simp [ZipEntry.setEncryption]
            | succ position =>
                have rest := ih position
                cases head <;> simp [rest.1, rest.2]
      · simp at set

end Zip

end FileTransfer
