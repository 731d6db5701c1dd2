import FileTransfer.Archive.Handle
import Mathlib.Algebra.Ring.Nat
import Mathlib.Data.List.Forall2

/-!
# What one append can commit

The handles `append_to_zip` can hold between `zip_open` and `zip_close`,
and what the entries of the file are when such a handle has been written.
Whatever the three calls in between return, every entry the file had is still
there, and at most one entry was added.
-/

namespace FileTransfer

set_option autoImplicit false

/-- The name and the content of an entry, without its encryption. -/
def Entry.stored (entry : Entry) : Bytes × Bytes := (entry.name, entry.content)

def ZipFile.stored (file : ZipFile) : List (Bytes × Bytes) := file.entries.map (·.stored)

def ZipEntry.stored (readFile : Bytes → Option Bytes) : ZipEntry → Option (Bytes × Bytes)
  | .original entry _ => some entry.stored
  | .added name (.buffer content) _ => some (name, content)
  | .added name (.file path) _ => (readFile path).map fun content => (name, content)

@[simp] theorem ZipEntry.stored_set_encryption (readFile : Bytes → Option Bytes)
    (encryption : Encryption) (entry : ZipEntry) :
    (entry.setEncryption encryption).stored readFile = entry.stored readFile := by
  cases entry with
  | original entry change => rfl
  | added name source change => cases source <;> rfl

theorem ZipEntry.write_stored {readFile : Bytes → Option Bytes} {entry : ZipEntry}
    {written : Entry} (writes : entry.write readFile = some written) :
    entry.stored readFile = some written.stored := by
  cases entry with
  | original entry change =>
      cases change with
      | none => cases writes; rfl
      | some encryption =>
          simp only [write] at writes
          split at writes
          · cases writes; rfl
          · cases writes
  | added name source change =>
      cases source with
      | buffer content => cases writes; rfl
      | file path =>
          simp only [write, Option.map_eq_some_iff] at writes
          obtain ⟨content, reads, rfl⟩ := writes
          simp [stored, reads, Entry.stored]

namespace Zip

theorem write_forall₂ {archive : Zip} {readFile : Bytes → Option Bytes}
    {entries : List Entry} (writes : archive.write readFile = some entries) :
    List.Forall₂ (fun entry written => entry.write readFile = some written)
      archive.entry entries := by
  obtain ⟨entry⟩ := archive
  simp only [write] at writes
  induction entry generalizing entries with
  | nil =>
      cases writes
      exact .nil
  | cons head tail ih =>
      simp only [List.mapM_cons, Option.bind_eq_bind, Option.bind_eq_some_iff, Option.pure_def,
        Option.some.injEq] at writes
      obtain ⟨written, writesHead, rest, writesRest, rfl⟩ := writes
      exact .cons writesHead (ih writesRest)

def stored (archive : Zip) (readFile : Bytes → Option Bytes) : List (Option (Bytes × Bytes)) :=
  archive.entry.map (·.stored readFile)

theorem write_stored {archive : Zip} {readFile : Bytes → Option Bytes}
    {entries : List Entry} (writes : archive.write readFile = some entries) :
    archive.stored readFile = entries.map fun entry => some entry.stored := by
  have pairs := (write_forall₂ writes).imp fun _ _ => ZipEntry.write_stored
  obtain ⟨entry⟩ := archive
  simp only [stored] at pairs ⊢
  clear writes
  induction pairs with
  | nil => rfl
  | cons head _ ih => rw [List.map_cons, List.map_cons, head, ih]

@[simp] theorem stored_opened (entries : List Entry) (readFile : Bytes → Option Bytes) :
    (opened entries).stored readFile = entries.map fun entry => some entry.stored := by
  simp [opened, stored, ZipEntry.stored, Function.comp_def]

theorem stored_set_encryption {archive archive' : Zip} {index : Option Nat}
    {password : Bytes} {memory : Bool} {readFile : Bytes → Option Bytes}
    (set : archive.fileSetEncryption index password memory = some archive') :
    archive'.stored readFile = archive.stored readFile := by
  cases index with
  | none => simp [fileSetEncryption] at set
  | some position =>
      simp only [fileSetEncryption] at set
      split at set
      · cases set
        simp only [stored]
        apply List.ext_getElem
        · simp
        · intro at' _ _
          simp only [List.getElem_map, List.getElem_modify]
          split <;> simp
      · cases set

def buffered (archive : Zip) : List (Bytes × Bytes) :=
  archive.additions.filterMap fun addition => match addition.2 with
    | .buffer content => some (addition.1, content)
    | .file _ => none

@[simp] theorem buffered_opened (entries : List Entry) : (opened entries).buffered = [] := by
  simp [buffered]

/-- The handle after `append_to_zip` has called `zip_file_add`. -/
inductive Added (opened : List Entry) (fileName content : Bytes) : Zip → Prop where
  | refused : Added opened fileName content (.opened opened)
  | added {kept : Bytes} (accepted : acceptedName fileName = some kept)
      (fresh : (Zip.opened opened).nameLocate fileName .guess = none) :
      Added opened fileName content
        ⟨(Zip.opened opened).entry ++ [.added kept (.buffer content) none]⟩

theorem file_add_added (opened : List Entry) (fileName content : Bytes) (memory : Bool) :
    Added opened fileName content
      (((Zip.opened opened).fileAdd fileName (.buffer content) memory).getD (.opened opened)) := by
  cases adds : (Zip.opened opened).fileAdd fileName (.buffer content) memory with
  | none => exact .refused
  | some archive =>
      obtain ⟨kept, accepted, _, fresh, rfl⟩ := file_add_eq_some.mp adds
      exact .added accepted fresh

/-- The handle `append_to_zip` gives to `zip_close`. -/
inductive Appended (opened : List Entry) (fileName content password : Bytes) : Zip → Prop where
  | set {before : Zip} (adds : Added opened fileName content before) {index : Option Nat}
      (located : index = none ∨ index = before.nameLocate fileName .utf8) (memory : Bool) :
      Appended opened fileName content password
        ((before.fileSetEncryption index password memory).getD before)

/-- The list of what an append adds: nothing, or its content under the name
libzip keeps. -/
def IsAddition (fileName content : Bytes) (added : List (Bytes × Bytes)) : Prop :=
  added = [] ∨ ∃ kept, acceptedName fileName = some kept ∧ added = [(kept, content)]

theorem Added.stored {opened : List Entry} {fileName content : Bytes} {archive : Zip}
    (adds : Added opened fileName content archive) (readFile : Bytes → Option Bytes) :
    IsAddition fileName content archive.buffered ∧
      archive.stored readFile = (opened.map (·.stored) ++ archive.buffered).map some := by
  cases adds with
  | refused => exact ⟨.inl (by simp), by simp [Function.comp_def]⟩
  | @added kept accepted fresh =>
      have adds : buffered ⟨(Zip.opened opened).entry ++ [.added kept (.buffer content) none]⟩ =
          [(kept, content)] := by
        have nothing := additions_opened opened
        simp_all [buffered, additions]
      refine ⟨.inr ⟨kept, accepted, adds⟩, ?_⟩
      rw [adds]
      simp [Zip.stored, Zip.opened, ZipEntry.stored, Function.comp_def]

theorem Added.originals {opened : List Entry} {fileName content : Bytes} {archive : Zip}
    (adds : Added opened fileName content archive) : archive.originals = opened := by
  cases adds with
  | refused => exact originals_opened opened
  | added accepted fresh =>
      have same := originals_opened opened
      simpa [Zip.originals] using same

variable {opened : List Entry} {fileName content password : Bytes} {archive : Zip}

theorem Appended.originals (appends : Appended opened fileName content password archive) :
    archive.originals = opened := by
  cases appends with
  | @set before adds index located memory =>
      cases sets : before.fileSetEncryption index password memory with
      | none => exact adds.originals
      | some after =>
          rw [Option.getD_some, (set_encryption_keeps sets).1]
          exact adds.originals

theorem Appended.stored (appends : Appended opened fileName content password archive)
    (readFile : Bytes → Option Bytes) :
    IsAddition fileName content archive.buffered ∧
      archive.stored readFile = (opened.map (·.stored) ++ archive.buffered).map some := by
  cases appends with
  | @set before adds index located memory =>
      cases sets : before.fileSetEncryption index password memory with
      | none => exact adds.stored readFile
      | some after =>
          have same : after.buffered = before.buffered := by
            rw [buffered, buffered, (set_encryption_keeps sets).2]
          rw [Option.getD_some, stored_set_encryption sets, same]
          exact adds.stored readFile

/-- A committed append keeps every entry the file had and adds at most its
own. -/
theorem Appended.written (appends : Appended opened fileName content password archive)
    {readFile : Bytes → Option Bytes} {entries : List Entry}
    (writes : archive.write readFile = some entries) :
    IsAddition fileName content archive.buffered ∧
      entries.map (·.stored) = opened.map (·.stored) ++ archive.buffered := by
  obtain ⟨addition, same⟩ := appends.stored readFile
  refine ⟨addition, ?_⟩
  rw [write_stored writes] at same
  have injective : Function.Injective (List.map (some : Bytes × Bytes → _)) :=
    List.map_injective_iff.mpr fun _ _ => Option.some.inj
  apply injective
  rw [← same, List.map_map]
  rfl

/-- The data of an encrypted entry cannot be read back, so it is written as it
was or not at all. -/
theorem write_encrypted {entry written : Entry} {change : Option Encryption}
    {readFile : Bytes → Option Bytes} (encrypted : entry.encryption ≠ .none)
    (writes : (ZipEntry.original entry change).write readFile = some written) :
    change = none ∧ written = entry := by
  cases change with
  | none =>
      cases writes
      exact ⟨rfl, rfl⟩
  | some encryption => simp [ZipEntry.write, encrypted] at writes

theorem set_encryption_eq_some {archive after : Zip} {index : Option Nat} {password : Bytes}
    {memory : Bool} (set : archive.fileSetEncryption index password memory = some after) :
    ∃ position, index = some position ∧ position < archive.entry.length ∧
      after.entry = archive.entry.modify position (.setEncryption (.aes256 password)) := by
  cases index with
  | none => cases set
  | some position =>
      simp only [fileSetEncryption] at set
      split at set
      · rename_i fits
        cases set
        exact ⟨position, rfl, by simpa using (Bool.and_eq_true_iff.mp fits).2, rfl⟩
      · cases set

theorem modify_forall₂ (change : ZipEntry → ZipEntry) (entries : List ZipEntry) (position : Nat) :
    List.Forall₂ (fun before after => after = before ∨ after = change before)
      entries (entries.modify position change) := by
  induction entries generalizing position with
  | nil =>
      rw [List.modify_nil]
      exact .nil
  | cons head tail ih =>
      cases position with
      | zero =>
          rw [List.modify_zero_cons]
          exact .cons (.inr rfl) (List.forall₂_same.mpr fun _ _ => .inl rfl)
      | succ position =>
          rw [List.modify_succ_cons]
          exact .cons (.inl rfl) (ih position)

theorem set_encryption_written {archive : Zip} {index : Option Nat} {password : Bytes}
    {memory : Bool} {readFile : Bytes → Option Bytes} {entries : List Entry}
    (writes : ((archive.fileSetEncryption index password memory).getD archive).write readFile =
      some entries) :
    List.Forall₂ (fun (before : ZipEntry) written =>
      before.write readFile = some written ∨
        (before.setEncryption (.aes256 password)).write readFile = some written)
          archive.entry entries := by
  have pairs := write_forall₂ writes
  cases set : archive.fileSetEncryption index password memory with
  | none =>
      rw [set, Option.getD_none] at pairs
      exact pairs.imp fun _ _ => .inl
  | some after =>
      obtain ⟨position, same⟩ : ∃ position, after.entry =
          archive.entry.modify position (.setEncryption (.aes256 password)) := by
        obtain ⟨position, _, _, same⟩ := set_encryption_eq_some set
        exact ⟨position, same⟩
      rw [set, Option.getD_some, same] at pairs
      have changes := modify_forall₂ (.setEncryption (.aes256 password)) archive.entry position
      clear writes set same
      generalize archive.entry.modify position (.setEncryption (.aes256 password)) = written at *
      generalize archive.entry = original at *
      induction changes generalizing entries with
      | nil =>
          cases pairs
          exact .nil
      | @cons head after' tail rest change _ ih =>
          cases pairs with
          | cons writes pairs =>
              refine .cons ?_ (ih pairs)
              rcases change with rfl | rfl
              · exact .inl writes
              · exact .inr writes

theorem refused_unwritten {opened : List Entry} {after : Zip} {index : Option Nat}
    {password : Bytes} {memory : Bool} {readFile : Bytes → Option Bytes} {entries : List Entry}
    (encrypted : ∀ entry ∈ opened, entry.encryption ≠ .none)
    (set : (Zip.opened opened).fileSetEncryption index password memory = some after) :
    after.write readFile ≠ some entries := by
  intro writes
  obtain ⟨position, _, bound, same⟩ := set_encryption_eq_some set
  have pairs := write_forall₂ writes
  rw [same] at pairs
  have inside : position < ((Zip.opened opened).entry.modify position
      (.setEncryption (.aes256 password))).length := by
    rwa [List.length_modify]
  obtain ⟨lengths, each⟩ := List.forall₂_iff_get.mp pairs
  have written := each position inside (lengths ▸ inside)
  have original : ∃ entry ∈ opened, (Zip.opened opened).entry[position] = .original entry none := by
    obtain ⟨entry, there, same⟩ := List.mem_map.mp (List.getElem_mem bound)
    exact ⟨entry, there, same.symm⟩
  obtain ⟨entry, there, here⟩ := original
  rw [List.get_eq_getElem, List.getElem_modify, if_pos rfl, here] at written
  cases (write_encrypted (encrypted entry there) written).1

theorem written_after_originals {opened : List Entry} {last : ZipEntry} {password : Bytes}
    {readFile : Bytes → Option Bytes} {entries : List Entry}
    (encrypted : ∀ entry ∈ opened, entry.encryption ≠ .none)
    (pairs : List.Forall₂ (fun (before : ZipEntry) written =>
      before.write readFile = some written ∨
        (before.setEncryption (.aes256 password)).write readFile = some written)
          (opened.map (.original · none) ++ [last]) entries) :
    ∃ written, (last.write readFile = some written ∨
      (last.setEncryption (.aes256 password)).write readFile = some written) ∧
        entries = opened ++ [written] := by
  induction opened generalizing entries with
  | nil =>
      cases pairs with
      | cons head rest =>
          cases rest
          exact ⟨_, head, rfl⟩
  | cons entry opened ih =>
      rw [List.forall_mem_cons] at encrypted
      cases pairs with
      | @cons _ first _ rest head tail =>
          obtain ⟨written, writes, rfl⟩ := ih encrypted.2 tail
          have same : first = entry := by
            rcases head with asIs | set
            · exact (write_encrypted encrypted.1 asIs).2
            · have changed : (ZipEntry.original entry (some (.aes256 password))).write readFile =
                  some first := set
              exact (write_encrypted encrypted.1 changed).2
          exact ⟨written, writes, by rw [same]; rfl⟩

end Zip

/-- One for the entry and one for its encryption. An archive that is written
again has a greater weight than before. -/
def Entry.weight (entry : Entry) : Nat :=
  if entry.encryption = .none then 1 else 2

def ZipFile.weight (file : ZipFile) : Nat := (file.entries.map (·.weight)).sum

def ZipEntry.weight : ZipEntry → Nat
  | .original entry _ => entry.weight
  | .added _ _ _ => 0

def ZipEntry.NeverDecrypted : ZipEntry → Prop
  | .original _ change | .added _ _ change => change ≠ some .none

theorem ZipEntry.written_weight {entry : ZipEntry} {readFile : Bytes → Option Bytes}
    {written : Entry} (kept : entry.NeverDecrypted) (writes : entry.write readFile = some written) :
    entry.weight + entry.hasChanges.toNat ≤ written.weight := by
  have positive : 1 ≤ written.weight := by
    unfold Entry.weight
    split <;> omega
  cases entry with
  | added name source change => simpa [weight, hasChanges] using positive
  | original entry change =>
      cases change with
      | none =>
          cases writes
          simp [weight, hasChanges]
      | some encryption =>
          have encrypts : encryption ≠ .none := fun same => kept (congrArg some same)
          simp only [write] at writes
          split at writes
          · rename_i plain
            cases writes
            simp [weight, hasChanges, Entry.weight, plain, encrypts]
          · cases writes

namespace Zip

theorem written_weight {archive : Zip} {readFile : Bytes → Option Bytes} {entries : List Entry}
    (kept : ∀ entry ∈ archive.entry, entry.NeverDecrypted)
    (writes : archive.write readFile = some entries) :
    (archive.originals.map (·.weight)).sum + archive.changed.toNat ≤
      (entries.map (·.weight)).sum := by
  have pairs := write_forall₂ writes
  obtain ⟨entry⟩ := archive
  simp only [originals, changed] at kept pairs ⊢
  clear writes
  induction pairs with
  | nil => simp
  | @cons head written tail rest writes _ ih =>
      rw [List.forall_mem_cons] at kept
      have first := ZipEntry.written_weight kept.1 writes
      have others := ih kept.2
      have changes : (head.hasChanges || tail.any (·.hasChanges)).toNat ≤
          head.hasChanges.toNat + (tail.any (·.hasChanges)).toNat := by
        cases head.hasChanges <;> simp
      rw [List.any_cons, List.map_cons, List.sum_cons]
      cases head with
      | original original change =>
          simp only [List.filterMap_cons, List.map_cons, List.sum_cons]
          simp only [ZipEntry.weight] at first
          omega
      | added name source change =>
          simp only [List.filterMap_cons]
          omega

theorem Added.never_decrypted {opened : List Entry} {fileName content : Bytes} {archive : Zip}
    (adds : Added opened fileName content archive) :
    ∀ entry ∈ archive.entry, entry.NeverDecrypted := by
  cases adds with
  | refused => simp [Zip.opened, ZipEntry.NeverDecrypted]
  | added accepted fresh => simp [Zip.opened, ZipEntry.NeverDecrypted, or_imp, forall_and]

theorem Appended.never_decrypted {opened : List Entry} {fileName content password : Bytes}
    {archive : Zip} (appends : Appended opened fileName content password archive) :
    ∀ entry ∈ archive.entry, entry.NeverDecrypted := by
  cases appends with
  | @set before adds index located memory =>
      cases set : before.fileSetEncryption index password memory with
      | none => exact adds.never_decrypted
      | some after =>
          obtain ⟨position, _, _, same⟩ := set_encryption_eq_some set
          intro entry there
          rw [Option.getD_some, same] at there
          obtain ⟨at', bound, rfl⟩ := List.mem_iff_getElem.mp there
          rw [List.length_modify] at bound
          have kept := adds.never_decrypted _ (List.getElem_mem bound)
          rw [List.getElem_modify]
          split
          · cases before.entry[at'] <;> simp [ZipEntry.setEncryption, ZipEntry.NeverDecrypted]
          · exact kept

theorem Appended.outweighs {opened : List Entry} {fileName content password : Bytes}
    {archive : Zip} (appends : Appended opened fileName content password archive)
    {readFile : Bytes → Option Bytes} {written : ZipFile}
    (closes : archive.closes readFile (.written written) = true) :
    (opened.map (·.weight)).sum < written.weight := by
  simp only [Zip.closes, Bool.and_eq_true, decide_eq_true_eq] at closes
  have heavier := written_weight appends.never_decrypted closes.2
  rw [appends.originals, closes.1] at heavier
  exact heavier

end Zip

end FileTransfer
