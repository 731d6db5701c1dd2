import FileTransfer.Archive.Commit
import FileTransfer.Interaction.Execution
import FileTransfer.Program.Transfer
import Mathlib.Data.List.Nodup
import Mathlib.Logic.Function.Basic

/-!
# What `create_zip_from_files` does to the local files

The files are deleted while they are queued, and read when the archive is
closed. Whether something is lost is decided by which deletions succeed and by
what the archive had before.
-/

namespace FileTransfer

set_option autoImplicit false

open Interaction

/-- The local disk. A file comes with the entries libzip reads from it, if it
is an archive; a name has at most `NAME_MAX` bytes. -/
structure LocalDisk where
  files : Bytes → Option ZipFile
  nameMax : ∀ path, (files path).isSome = true → (baseName path).length ≤ 255

namespace LocalDisk

def readFile (disk : LocalDisk) (path : Bytes) : Option Bytes :=
  (disk.files path).map (·.bytes)

def entries (disk : LocalDisk) (path : Bytes) : List Entry :=
  (disk.files path).elim [] (·.entries)

def remove (disk : LocalDisk) (path : Bytes) : LocalDisk where
  files := Function.update disk.files path none
  nameMax := by
    intro other there
    by_cases same : other = path
    · subst same
      simp at there
    · rw [Function.update_of_ne same] at there
      exact disk.nameMax other there

def store (disk : LocalDisk) (path : Bytes) (file : ZipFile)
    (short : (baseName path).length ≤ 255) : LocalDisk where
  files := Function.update disk.files path (some file)
  nameMax := by
    intro other there
    by_cases same : other = path
    · subst same
      exact short
    · rw [Function.update_of_ne same] at there
      exact disk.nameMax other there

def opens (disk : LocalDisk) (path : Bytes) (create : Bool) (opened : List Entry) : Bool :=
  match disk.files path with
  | some file => opened = file.entries
  | none => create && opened.isEmpty

/-- A source made by `zip_source_file` is read when the archive at `zipPath` is
closed. The other calls may fail or succeed as they like. -/
def respond (zipPath : Bytes) (disk : LocalDisk) :
    (call : Call) → call.Answer → Option LocalDisk
  | .zipOpen path create, some opened => if disk.opens path create opened then some disk else none
  | .zipClose archive, .written file =>
      if fits : archive.closes disk.readFile (.written file) = true ∧
          (baseName zipPath).length ≤ 255 then
        some (disk.store zipPath file fits.2)
      else none
  | .zipClose archive, .discarded =>
      if archive.closes disk.readFile .discarded then some disk else none
  | .zipClose archive, .failed =>
      if archive.closes disk.readFile .failed then some disk else none
  | .unlink path, true => if (disk.files path).isSome then some (disk.remove path) else none
  | _, _ => some disk

theorem opens_entries {disk : LocalDisk} {path : Bytes} {create : Bool} {opened : List Entry}
    (found : disk.opens path create opened = true) : opened = disk.entries path := by
  unfold opens at found
  unfold entries
  cases present : disk.files path with
  | none =>
      rw [present] at found
      exact List.isEmpty_iff.mp (Bool.and_eq_true_iff.mp found).2
  | some file =>
      rw [present] at found
      exact of_decide_eq_true found

end LocalDisk

def Zip.CloseResult.file : Zip.CloseResult → Option ZipFile
  | .written file => some file
  | .discarded | .failed => none

abbrev diskEnv (zipPath : Bytes) : Env Call.Answer where
  World := LocalDisk
  Move := Empty
  respond := LocalDisk.respond zipPath
  move := nofun

/-- The handle holds the entries it was opened on and files of the list. -/
structure Zip.Queues (opened : List Entry) (files : List Bytes) (archive : Zip) : Prop where
  originals : archive.originals = opened
  additions : ∀ addition ∈ archive.additions, ∃ file ∈ files,
    acceptedName (baseName file) = some addition.1 ∧ addition.2 = .file file

namespace Zip

variable {opened : List Entry} {files : List Bytes} {archive : Zip}

theorem queues_opened (opened : List Entry) (files : List Bytes) :
    (Zip.opened opened).Queues opened files where
  originals := originals_opened opened
  additions := by
    intro addition member
    rw [additions_opened] at member
    cases member

theorem Queues.add (queues : archive.Queues opened files) {file : Bytes} (among : file ∈ files)
    (memory : Bool) :
    ((archive.fileAdd (baseName file) (.file file) memory).getD archive).Queues opened files := by
  cases adds : archive.fileAdd (baseName file) (.file file) memory with
  | none => exact queues
  | some archive' =>
      obtain ⟨kept, accepted, _, _, rfl⟩ := file_add_eq_some.mp adds
      constructor
      · simpa [Zip.originals] using queues.originals
      · intro addition member
        have split : Zip.additions ⟨archive.entry ++ [.added kept (.file file) none]⟩ =
            archive.additions ++ [(kept, .file file)] := by simp [Zip.additions]
        rw [Option.getD_some, split] at member
        rcases List.mem_append.mp member with earlier | last
        · exact queues.additions addition earlier
        · rw [List.mem_singleton.mp last]
          exact ⟨file, among, accepted, rfl⟩

theorem Queues.set (queues : archive.Queues opened files) (index : Option Nat) (password : Bytes)
    (memory : Bool) :
    ((archive.fileSetEncryption index password memory).getD archive).Queues opened files := by
  cases sets : archive.fileSetEncryption index password memory with
  | none => exact queues
  | some archive' =>
      obtain ⟨originals, additions⟩ := set_encryption_keeps sets
      exact ⟨originals.trans queues.originals, fun addition member =>
        queues.additions addition (additions ▸ member)⟩

theorem mem_originals {entry : Entry} :
    entry ∈ archive.originals ↔ ∃ change, .original entry change ∈ archive.entry := by
  unfold originals
  rw [List.mem_filterMap]
  constructor
  · rintro ⟨zipEntry, there, same⟩
    cases zipEntry with
    | original entry' change =>
        cases same
        exact ⟨change, there⟩
    | added name source change => cases same
  · rintro ⟨change, there⟩
    exact ⟨_, there, rfl⟩

theorem mem_additions {name : Bytes} {source : Source} :
    (name, source) ∈ archive.additions ↔ ∃ change, .added name source change ∈ archive.entry := by
  unfold additions
  rw [List.mem_filterMap]
  constructor
  · rintro ⟨zipEntry, there, same⟩
    cases zipEntry with
    | original entry change => cases same
    | added name' source' change =>
        cases same
        exact ⟨change, there⟩
  · rintro ⟨change, there⟩
    exact ⟨_, there, rfl⟩

theorem mem_written {readFile : Bytes → Option Bytes} {entries : List Entry}
    (writes : archive.write readFile = some entries) {stored : Bytes × Bytes} :
    stored ∈ entries.map (·.stored) ↔
      ∃ zipEntry ∈ archive.entry, zipEntry.stored readFile = some stored := by
  have same := write_stored writes
  have lifted : some stored ∈ archive.stored readFile ↔ stored ∈ entries.map (·.stored) := by
    rw [same]
    simp
  rw [← lifted, Zip.stored, List.mem_map]

theorem Queues.keeps (queues : archive.Queues opened files) {readFile : Bytes → Option Bytes}
    {entries : List Entry} (writes : archive.write readFile = some entries) {entry : Entry}
    (there : entry ∈ opened) : entry.stored ∈ entries.map (·.stored) := by
  rw [← queues.originals, mem_originals] at there
  obtain ⟨change, there⟩ := there
  exact (mem_written writes).mpr ⟨_, there, rfl⟩

theorem Queues.source (queues : archive.Queues opened files) {readFile : Bytes → Option Bytes}
    {entries : List Entry} (writes : archive.write readFile = some entries)
    {stored : Bytes × Bytes} (member : stored ∈ entries.map (·.stored)) :
    (∃ entry ∈ opened, entry.stored = stored) ∨
      ∃ file ∈ files, (readFile file).isSome = true ∧
        acceptedName (baseName file) = some stored.1 := by
  obtain ⟨zipEntry, there, same⟩ := (mem_written writes).mp member
  cases zipEntry with
  | original entry change =>
      have original := mem_originals.mpr ⟨change, there⟩
      rw [queues.originals] at original
      exact .inl ⟨entry, original, Option.some.inj same⟩
  | added name source change =>
      obtain ⟨file, among, accepted, source'⟩ :=
        queues.additions _ (mem_additions.mpr ⟨change, there⟩)
      simp only at source'
      subst source'
      obtain ⟨content, reads, rfl⟩ := Option.map_eq_some_iff.mp same
      exact .inr ⟨file, among, Option.isSome_iff_exists.mpr ⟨content, reads⟩, accepted⟩

end Zip

structure Packing where
  removed : List Bytes
  committed : Option ZipFile

section

variable {files : List Bytes} {localDir zipPath password : Bytes}

def Packing.record (packing : Packing) :
    Turn (createZipFromFiles files localDir zipPath password) → Packing
  | ⟨.unlink _ file _, true⟩ =>
      { packing with removed := (localDir ++ baseName file) :: packing.removed }
  | ⟨.zipClose _, closed⟩ | ⟨.zipCloseSource _, closed⟩ =>
      { packing with committed := closed.file }
  | _ => packing

def packing (turns : List (Turn (createZipFromFiles files localDir zipPath password))) : Packing :=
  turns.foldr (fun turn packing => packing.record turn) ⟨[], none⟩

end

section

variable (files : List Bytes) (zipPath : Bytes) (disk : LocalDisk)

/-- The disk while the files are queued: those deleted are gone, and they are
files of the list that were there. -/
structure Packing.Queueing (archive : Zip) (packing : Packing) (now : LocalDisk) : Prop where
  uncommitted : packing.committed = none
  removed : ∀ path ∈ packing.removed, path ∈ files ∧ (disk.files path).isSome = true
  left : ∀ path, now.files path = if path ∈ packing.removed then none else disk.files path
  queues : archive.Queues (disk.entries zipPath) files

/-- The disk afterwards: a commit has replaced the archive by one that holds
what it had, and else only files of the list that were not deleted. -/
structure Packing.Ended (packing : Packing) (now : LocalDisk) : Prop where
  removed : ∀ path ∈ packing.removed, path ∈ files ∧ (disk.files path).isSome = true
  left : packing.committed = none →
    ∀ path, now.files path = if path ∈ packing.removed then none else disk.files path
  archive : ∀ written, packing.committed = some written →
    now.files zipPath = some written ∧
      ∀ path, path ≠ zipPath →
        now.files path = if path ∈ packing.removed then none else disk.files path
  keeps : ∀ written, packing.committed = some written →
    ∀ entry ∈ disk.entries zipPath, entry.stored ∈ written.stored
  source : ∀ written, packing.committed = some written → ∀ stored ∈ written.stored,
    (∃ entry ∈ disk.entries zipPath, entry.stored = stored) ∨
      ∃ file ∈ files, file ∉ packing.removed ∧ (disk.files file).isSome = true ∧
        acceptedName (baseName file) = some stored.1

def CreateZipPc.Packs : CreateZipPc → Packing → LocalDisk → Prop
  | .semWait, packing, now | .zipOpen, packing, now | .strerrorOpen, packing, now =>
      packing = ⟨[], none⟩ ∧ now = disk
  | .zipSourceFile archive file todo, packing, now | .zipFileAdd archive file todo, packing, now
  | .zipNameLocate archive file todo, packing, now
  | .zipFileSetEncryption archive _ file todo, packing, now
  | .unlink archive file todo, packing, now =>
      packing.Queueing files zipPath disk archive now ∧ file ∈ files ∧ todo ⊆ files
  | .strerrorSource archive, packing, now | .zipCloseSource archive, packing, now
  | .zipClose archive, packing, now => packing.Queueing files zipPath disk archive now
  | .strerrorClose _, packing, now | .semPost _, packing, now =>
      packing.Ended files zipPath disk now

end

section

variable {files : List Bytes} {zipPath : Bytes} {disk now after : LocalDisk} {archive : Zip}
  {packing : Packing}

theorem queueing_start (files : List Bytes) (zipPath : Bytes) (disk : LocalDisk) :
    Packing.Queueing files zipPath disk (.opened (disk.entries zipPath)) ⟨[], none⟩ disk where
  uncommitted := rfl
  removed := by
    intro path member
    cases member
  left := by
    intro path
    rw [if_neg List.not_mem_nil]
  queues := Zip.queues_opened _ _

theorem loop_packs (queueing : packing.Queueing files zipPath disk archive now)
    {todo : List Bytes} (ahead : todo ⊆ files) :
    (CreateZipPc.loop archive todo).Packs files zipPath disk packing now := by
  cases todo with
  | nil => exact queueing
  | cons file todo =>
      exact ⟨queueing, ahead List.mem_cons_self, List.subset_of_cons_subset ahead⟩

theorem Packing.Queueing.there (queueing : packing.Queueing files zipPath disk archive now)
    {path : Bytes} (there : (now.files path).isSome = true) :
    path ∉ packing.removed ∧ (disk.files path).isSome = true := by
  rw [queueing.left path] at there
  split at there
  · cases there
  · exact ⟨‹_›, there⟩

theorem Packing.Queueing.unlink (queueing : packing.Queueing files zipPath disk archive now)
    {path : Bytes} (among : path ∈ files)
    (responds : now.respond zipPath (.unlink path) true = some after) :
    Packing.Queueing files zipPath disk archive
      { packing with removed := path :: packing.removed } after := by
  simp only [LocalDisk.respond] at responds
  split at responds
  · rename_i present
    cases responds
    refine ⟨queueing.uncommitted, ?_, ?_, queueing.queues⟩
    · intro other member
      rcases List.mem_cons.mp member with rfl | earlier
      · exact ⟨among, (queueing.there present).2⟩
      · exact queueing.removed other earlier
    · intro other
      by_cases same : other = path
      · subst same
        simp [LocalDisk.remove]
      · simp [LocalDisk.remove, same, queueing.left other]
  · cases responds

theorem Packing.Queueing.unwritten (queueing : packing.Queueing files zipPath disk archive now) :
    Packing.Ended files zipPath disk { packing with committed := none } now where
  removed := queueing.removed
  left := fun _ => queueing.left
  archive := fun _ none => by cases none
  keeps := fun _ none => by cases none
  source := fun _ none => by cases none

theorem Packing.Queueing.close (queueing : packing.Queueing files zipPath disk archive now)
    {closed : Zip.CloseResult}
    (responds : now.respond zipPath (.zipClose archive) closed = some after) :
    Packing.Ended files zipPath disk { packing with committed := closed.file } after := by
  cases closed with
  | discarded | failed =>
      simp only [LocalDisk.respond] at responds
      split at responds <;> cases responds
      exact queueing.unwritten
  | written file =>
      simp only [LocalDisk.respond] at responds
      split at responds
      · rename_i fits
        cases responds
        have writes : archive.write now.readFile = some file.entries := by
          have closes := fits.1
          simp only [Zip.closes, Bool.and_eq_true, decide_eq_true_eq] at closes
          exact closes.2
        refine ⟨queueing.removed, ?_, ?_, ?_, ?_⟩
        · intro none
          cases none
        · intro written same
          cases same
          refine ⟨by simp [LocalDisk.store], fun path other => ?_⟩
          simp [LocalDisk.store, other, queueing.left path]
        · intro written same entry there
          cases same
          exact queueing.queues.keeps writes there
        · intro written same stored member
          cases same
          rcases queueing.queues.source writes member with had | ⟨path, among, reads, accepted⟩
          · exact .inl had
          · have there : (now.files path).isSome = true := by
              simpa [LocalDisk.readFile] using reads
            obtain ⟨kept, before⟩ := queueing.there there
            exact .inr ⟨path, among, kept, before, accepted⟩
      · cases responds

end

def LocalDisk.Archives (disk : LocalDisk) (zipPath name content : Bytes) : Prop :=
  ∃ entry ∈ disk.entries zipPath, entry.stored = (name, content)

section

variable {files : List Bytes} {zipPath : Bytes} {disk now : LocalDisk} {packing : Packing}

theorem Packing.Ended.kept (ended : packing.Ended files zipPath disk now) {path : Bytes}
    (kept : path ∉ packing.removed) {before : ZipFile} (there : disk.files path = some before) :
    (now.files path).isSome = true := by
  cases committed : packing.committed with
  | none => rw [ended.left committed path, if_neg kept, there, Option.isSome_some]
  | some written =>
      obtain ⟨archive, others⟩ := ended.archive written committed
      by_cases same : path = zipPath
      · rw [same, archive, Option.isSome_some]
      · rw [others path same, if_neg kept, there, Option.isSome_some]

theorem Packing.Ended.gone (ended : packing.Ended files zipPath disk now) {path : Bytes}
    (gone : path ∈ packing.removed) :
    (now.files path).isSome = true ↔ path = zipPath ∧ packing.committed.isSome = true := by
  cases committed : packing.committed with
  | none =>
      rw [ended.left committed path, if_pos gone]
      simp
  | some written =>
      obtain ⟨archive, others⟩ := ended.archive written committed
      by_cases same : path = zipPath
      · rw [same, archive]
        simp
      · rw [others path same, if_pos gone]
        simp [same]

/-- A deleted file is in the archive only if it was before: its source cannot
be read, and no other file of the list has its name. -/
theorem Packing.Ended.archives (ended : packing.Ended files zipPath disk now)
    (distinct : (files.map baseName).Nodup) {file content : Bytes}
    (gone : file ∈ packing.removed) :
    now.Archives zipPath (baseName file) content ↔
      disk.Archives zipPath (baseName file) content ∧
        (zipPath ∈ packing.removed → packing.committed.isSome = true) := by
  cases committed : packing.committed with
  | none =>
      have left := ended.left committed zipPath
      by_cases removed : zipPath ∈ packing.removed
      · rw [if_pos removed] at left
        simp [LocalDisk.Archives, LocalDisk.entries, left, removed]
      · rw [if_neg removed] at left
        simp [LocalDisk.Archives, LocalDisk.entries, left, removed]
  | some written =>
      have archive := (ended.archive written committed).1
      have entries : now.entries zipPath = written.entries := by
        rw [LocalDisk.entries, archive, Option.elim_some]
      constructor
      · rintro ⟨entry, there, stored⟩
        rw [entries] at there
        refine ⟨?_, fun _ => rfl⟩
        rcases ended.source written committed _ (List.mem_map_of_mem there) with
          had | ⟨other, among, kept, before, accepted⟩
        · rw [stored] at had
          exact had
        · rw [stored] at accepted
          have short : (baseName other).length < 65536 :=
            Nat.lt_of_le_of_lt (disk.nameMax other before) (by decide)
          have names : baseName other = baseName file := (accepted_name_short accepted short).symm
          have same := List.inj_on_of_nodup_map distinct among (ended.removed file gone).1 names
          exact absurd (same ▸ gone) kept
      · rintro ⟨⟨entry, there, stored⟩, _⟩
        obtain ⟨entry', there', same⟩ :=
          List.mem_map.mp (ended.keeps written committed entry there)
        exact ⟨entry', entries ▸ there', same.trans stored⟩

end

theorem create_contract {files : List Bytes} {localDir zipPath password : Bytes}
    (located : ∀ file ∈ files, file = localDir ++ baseName file) (disk : LocalDisk) :
    Contract (createZipFromFiles files localDir zipPath password) (diskEnv zipPath)
      (fun turns pc now => pc.Packs files zipPath disk (packing turns) now)
      (fun turns _ now => (packing turns).Ended files zipPath disk now) := by
  intro turns pc answer before after packs responds
  cases pc with
  | semWait =>
      cases responds
      exact packs
  | strerrorOpen =>
      obtain ⟨nothing, rfl⟩ := packs
      cases responds
      have ended := (queueing_start files zipPath before).unwritten
      change (packing turns).Ended files zipPath before before
      rw [nothing]
      exact ended
  | zipOpen =>
      obtain ⟨nothing, rfl⟩ := packs
      cases answer with
      | none =>
          cases responds
          exact ⟨nothing, rfl⟩
      | some opened =>
          have opens : before.respond zipPath (.zipOpen zipPath true) (some opened) = some after :=
            responds
          simp only [LocalDisk.respond] at opens
          split at opens
          · rename_i found
            cases opens
            have queueing := queueing_start files zipPath before
            rw [← LocalDisk.opens_entries found, ← nothing] at queueing
            exact loop_packs queueing (List.Subset.refl files)
          · cases opens
  | zipSourceFile archive file todo =>
      cases responds
      cases answer with
      | false => exact packs.1
      | true => exact packs
  | zipFileAdd archive file todo =>
      cases responds
      obtain ⟨queueing, among, ahead⟩ := packs
      exact ⟨⟨queueing.uncommitted, queueing.removed, queueing.left,
        queueing.queues.add among answer⟩, among, ahead⟩
  | zipNameLocate archive file todo =>
      cases responds
      cases answer <;> exact packs
  | zipFileSetEncryption archive index file todo =>
      cases responds
      obtain ⟨queueing, among, ahead⟩ := packs
      exact ⟨⟨queueing.uncommitted, queueing.removed, queueing.left,
        queueing.queues.set index password answer⟩, among, ahead⟩
  | unlink archive file todo =>
      obtain ⟨queueing, among, ahead⟩ := packs
      cases answer with
      | false =>
          cases responds
          exact loop_packs queueing ahead
      | true =>
          have removes : before.respond zipPath (.unlink (localDir ++ baseName file)) true =
            some after := responds
          have among' : localDir ++ baseName file ∈ files := located file among ▸ among
          exact loop_packs (queueing.unlink among' removes) ahead
  | strerrorSource archive =>
      cases responds
      exact packs
  | zipCloseSource archive =>
      have closes : before.respond zipPath (.zipClose archive) answer = some after := responds
      exact packs.close closes
  | zipClose archive =>
      have closes : before.respond zipPath (.zipClose archive) answer = some after := responds
      have ended := packs.close closes
      cases answer <;> exact ended
  | strerrorClose archive =>
      cases responds
      exact packs
  | semPost result =>
      cases responds
      exact packs

/-- When `create_zip_from_files` returns, every file of the list that was there
is in the archive or still there, if and only if each file that was deleted was
in the archive before the call, or is the archive itself, and an archive that
was deleted has been written anew. -/
theorem create_zip_keeps_files_iff {files : List Bytes} {localDir zipPath password : Bytes}
    (located : ∀ file ∈ files, file = localDir ++ baseName file)
    (distinct : (files.map baseName).Nodup) {disk disk' : LocalDisk} {result : Bool}
    {turns : List (Turn (createZipFromFiles files localDir zipPath password))}
    (returned : Returned (createZipFromFiles files localDir zipPath password) (diskEnv zipPath)
      disk turns result disk') :
    (∀ file ∈ files, ∀ before, disk.files file = some before →
      disk'.Archives zipPath (baseName file) before.bytes ∨ (disk'.files file).isSome = true) ↔
    (∀ file ∈ (packing turns).removed, ∀ before, disk.files file = some before →
      (file = zipPath ∨ disk.Archives zipPath (baseName file) before.bytes) ∧
        (zipPath ∈ (packing turns).removed → (packing turns).committed.isSome = true)) := by
  have ended := (create_contract located disk).returned ⟨rfl, rfl⟩ returned
  constructor
  · intro safe file gone before there
    rcases safe file (ended.removed file gone).1 before there with archived | present
    · obtain ⟨had, renewed⟩ := (ended.archives distinct gone).mp archived
      exact ⟨.inr had, renewed⟩
    · obtain ⟨same, committed⟩ := (ended.gone gone).mp present
      exact ⟨.inl same, fun _ => committed⟩
  · intro spared file among before there
    by_cases gone : file ∈ (packing turns).removed
    · obtain ⟨same | had, renewed⟩ := spared file gone before there
      · exact .inr ((ended.gone gone).mpr ⟨same, renewed (same ▸ gone)⟩)
      · exact .inl ((ended.archives distinct gone).mpr ⟨had, renewed⟩)
    · exact .inr (ended.kept gone there)

def localA : Bytes := ascii "/tmp/local/a.txt"

def oneFileDisk : LocalDisk where
  files := fun path => if path = localA then some ⟨[], ascii "data"⟩ else none
  nameMax := by
    intro path there
    by_cases same : path = localA
    · rw [same]
      decide
    · rw [if_neg same] at there
      cases there

/-- Everything up to `delete_local_file` succeeds; that and `zip_close` end as
given. -/
def packs (deletes : Bytes → Bool) (closed : Zip.CloseResult) (disk : LocalDisk) :
    (call : Call) → Option call.Answer
  | .semWait | .semPost | .zipStrerror _ => some ()
  | .zipOpen path _ => some (some (disk.entries path))
  | .zipSourceFile _ | .zipFileAdd _ _ _ | .zipNameLocate _ _ _ => some true
  | .zipFileSetEncryption _ _ _ => some true
  | .unlink path => some (deletes path)
  | .zipClose _ => some closed
  | _ => none

abbrev createOne : Function Bool :=
  createZipFromFiles [localA] (ascii "/tmp/local/") localZipPath zipPassphrase

def localB : Bytes := ascii "/tmp/local/b.txt"

abbrev createTwo : Function Bool :=
  createZipFromFiles [localA, localB] (ascii "/tmp/local/") localZipPath zipPassphrase

def archivedA : ZipFile :=
  ⟨[⟨ascii "a.txt", ascii "data", .aes256 zipPassphrase⟩], ascii "a.txtdata"⟩

def filesAndArchive (path : Bytes) : Option ZipFile :=
  if path = localA then some ⟨[], ascii "data"⟩
  else if path = localB then some ⟨[], ascii "more"⟩
  else if path = localZipPath then some archivedA
  else none

theorem files_and_archive_short (path : Bytes) (there : (filesAndArchive path).isSome = true) :
    (baseName path).length ≤ 255 := by
  unfold filesAndArchive at there
  split at there
  · rename_i same
    rw [same]
    decide
  · split at there
    · rename_i same
      rw [same]
      decide
    · split at there
      · rename_i same
        rw [same]
        decide
      · cases there

def filesAndArchiveDisk : LocalDisk := ⟨filesAndArchive, files_and_archive_short⟩

/-- Of two files the first is in the archive and is deleted, the second is not
and cannot be deleted; `zip_close` fails. -/
theorem create_zip_keeps_archived :
    ∃ turns result disk', Returned createTwo (diskEnv localZipPath) filesAndArchiveDisk turns result
        disk' ∧ (packing turns).removed = [localA] ∧
      ∀ file ∈ [localA, localB], ∀ before, filesAndArchiveDisk.files file = some before →
        disk'.Archives localZipPath (baseName file) before.bytes ∨
          (disk'.files file).isSome = true := by
  have found : ∃ turns result disk',
      Returned createTwo (diskEnv localZipPath) filesAndArchiveDisk turns result disk' ∧
        decide ((packing turns).removed = [localA]) = true :=
    exists_returned_of_perform (List.replicate 15 (packs (fun path => path = localA) .failed)) _ _
      (by decide +kernel)
  obtain ⟨turns, result, disk', returned, outcome⟩ := found
  have removed := of_decide_eq_true outcome
  have located : ∀ file ∈ [localA, localB], file = ascii "/tmp/local/" ++ baseName file := by
    decide
  have keeps := (create_zip_keeps_files_iff located (by decide) returned).mpr
  rw [removed] at keeps
  refine ⟨turns, result, disk', returned, removed, keeps ?_⟩
  intro file among before there
  rw [List.mem_singleton.mp among] at there ⊢
  cases there
  refine ⟨.inr ⟨⟨ascii "a.txt", ascii "data", .aes256 zipPassphrase⟩, List.mem_singleton_self _,
    by decide⟩, fun same => ?_⟩
  exact absurd same (by decide)

/-- The file is deleted, its source cannot be read any more, `zip_close` fails
and the file is nowhere. -/
theorem create_zip_loses_file :
    ∃ turns disk', Returned createOne (diskEnv localZipPath) oneFileDisk turns false disk' ∧
      ¬ ∀ file ∈ [localA], ∀ before, oneFileDisk.files file = some before →
        disk'.Archives localZipPath (baseName file) before.bytes ∨
          (disk'.files file).isSome = true := by
  have found : ∃ turns result disk',
      Returned createOne (diskEnv localZipPath) oneFileDisk turns result disk' ∧
        (!result && (disk'.files localA).isNone && (disk'.files localZipPath).isNone) = true :=
    exists_returned_of_perform (List.replicate 10 (packs (fun _ => true) .failed)) _ _
      (by decide +kernel)
  obtain ⟨turns, result, disk', returned, outcome⟩ := found
  simp only [Bool.and_eq_true, Bool.not_eq_true', Option.isNone_iff_eq_none] at outcome
  obtain ⟨⟨rfl, gone⟩, unwritten⟩ := outcome
  refine ⟨turns, disk', returned, fun safe => ?_⟩
  rcases safe localA List.mem_cons_self ⟨[], ascii "data"⟩ rfl with ⟨entry, there, _⟩ | present
  · rw [LocalDisk.entries, unwritten] at there
    cases there
  · rw [gone] at present
    cases present

end FileTransfer
