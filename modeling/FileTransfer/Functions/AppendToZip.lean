import FileTransfer.Interaction.Execution
import FileTransfer.Pipeline.History
import FileTransfer.Pipeline.Smooth

/-!
# When `append_to_zip` tells the truth

Only the result of `zip_close` is looked at. A `zip_close` with nothing to
write succeeds, so a refused `zip_file_add` is reported as stored, unless the
encryption of an older entry of that name has been set: that cannot be written.
-/

namespace FileTransfer

set_option autoImplicit false

open Interaction

/-- On true the archive has one new entry, on false it is as it was. -/
def Truthful (fileName content : Bytes) (world : World) (result : Bool) (world' : World) : Prop :=
  if result then ∃ encryption, world'.entries = world.entries ++ [⟨fileName, content, encryption⟩]
  else world'.localZip = world.localZip

section

variable {fileName content zipPath password : Bytes}

/-- `zip_file_add` has added the entry, or `zip_file_set_encryption` succeeds on
the entry found instead. -/
def StoresOrFails : Turn (appendToZip fileName content zipPath password) → Prop
  | ⟨.zipFileSetEncryption archive index, memory⟩ =>
      archive.additions ≠ [] ∨ (archive.fileSetEncryption index password memory).isSome = true
  | _ => True

instance (turn : Turn (appendToZip fileName content zipPath password)) :
    Decidable (StoresOrFails turn) := by
  unfold StoresOrFails
  split <;> infer_instance

/-- What a point of `append_to_zip` called in `world` can say of the archive and
of the calls so far. -/
def Appending (world : World)
    (trace : List (Turn (appendToZip fileName content zipPath password))) :
    AppendPc → World → Prop
  | .semPost result, now =>
      Truthful fileName content world result now ↔ ∀ turn ∈ trace, StoresOrFails turn
  | .zipClose archive, now =>
      now.localZip = world.localZip ∧
        Zip.Appended world.entries fileName content password archive ∧
          (archive.changed = true ↔ ∀ turn ∈ trace, StoresOrFails turn)
  | .zipNameLocate archive, now =>
      now.localZip = world.localZip ∧ Zip.Added world.entries fileName content archive ∧
        ∀ turn ∈ trace, StoresOrFails turn
  | .zipFileSetEncryption archive index, now =>
      now.localZip = world.localZip ∧ Zip.Added world.entries fileName content archive ∧
        (index = none ∨ index = archive.nameLocate fileName .utf8) ∧
          ∀ turn ∈ trace, StoresOrFails turn
  | .zipSourceBuffer opened, now | .strerrorSource opened, now | .zipCloseSource opened, now
  | .zipFileAdd opened, now =>
      now.localZip = world.localZip ∧ opened = world.entries ∧ ∀ turn ∈ trace, StoresOrFails turn
  | .semWait, now | .zipOpen, now | .strerrorOpen, now | .strerrorClose _, now =>
      now.localZip = world.localZip ∧ ∀ turn ∈ trace, StoresOrFails turn

theorem Truthful.congr {world now now' : World} {result : Bool}
    (same : now'.localZip = now.localZip) :
    Truthful fileName content world result now' ↔ Truthful fileName content world result now := by
  rw [Truthful, Truthful, World.entries_congr same, same]

theorem set_encryption_changed {opened : List Entry} {archive : Zip} {index : Option Nat}
    {memory : Bool} (adds : Zip.Added opened fileName content archive) :
    ((archive.fileSetEncryption index password memory).getD archive).changed = true ↔
      archive.additions ≠ [] ∨
        (archive.fileSetEncryption index password memory).isSome = true := by
  cases set : archive.fileSetEncryption index password memory with
  | some after =>
      obtain ⟨position, _, bound, same⟩ := Zip.set_encryption_eq_some set
      refine iff_of_true ?_ (.inr rfl)
      have inside : position < after.entry.length := by
        rwa [same, List.length_modify]
      have noted : after.entry[position].hasChanges = true := by
        simp only [same, List.getElem_modify, if_pos]
        cases archive.entry[position] <;> rfl
      exact List.any_eq_true.mpr ⟨_, List.getElem_mem inside, noted⟩
  | none =>
      cases adds with
      | refused => simp
      | added accepted fresh => simp [Zip.changed, Zip.additions, ZipEntry.hasChanges]

theorem appended_truthful {fileName : FileName} {opened entries : List Entry} {archive : Zip}
    (encrypted : ∀ entry ∈ opened, entry.encryption ≠ .none)
    (appends : Zip.Appended opened fileName.val content password archive)
    (changed : archive.changed = true) (writes : archive.write noFiles = some entries) :
    ∃ encryption, entries = opened ++ [⟨fileName.val, content, encryption⟩] := by
  cases appends with
  | @set before adds index located memory =>
      cases adds with
      | refused =>
          cases set : (Zip.opened opened).fileSetEncryption index password memory with
          | none => simp [set] at changed
          | some after =>
              rw [set, Option.getD_some] at writes
              exact absurd writes (Zip.refused_unwritten encrypted set)
      | @added kept accepted fresh =>
          have short : fileName.val.length < 65536 :=
            Nat.lt_of_le_of_lt fileName.property.2.2.2 (by decide)
          obtain rfl := accepted_name_short accepted short
          obtain ⟨written, last, rfl⟩ :=
            Zip.written_after_originals encrypted (Zip.set_encryption_written writes)
          rcases last with asIs | set
          · cases asIs
            exact ⟨_, rfl⟩
          · cases set
            exact ⟨_, rfl⟩

theorem append_contract (fileName : FileName) (content zipPath password : Bytes) (world : World)
    (encrypted : ∀ entry ∈ world.entries, entry.encryption ≠ .none) :
    Contract (appendToZip fileName.val content zipPath password) libraryEnv
      (fun trace pc now => Appending world trace pc now)
      (fun trace result now => Truthful fileName.val content world result now ↔
        ∀ turn ∈ trace, StoresOrFails turn) := by
  intro trace pc answer before after appending responds
  have keeps : (pc.call fileName.val content zipPath password).touches = false →
      after.localZip = before.localZip :=
    fun quiet => (World.respond_quiet responds quiet).1
  cases pc with
  | semWait =>
      obtain ⟨same, stores⟩ := appending
      have kept := keeps rfl
      exact ⟨kept.trans same, List.forall_mem_cons.mpr ⟨trivial, stores⟩⟩
  | zipOpen =>
      obtain ⟨same, stores⟩ := appending
      have kept := keeps rfl
      cases answer with
      | none => exact ⟨kept.trans same, List.forall_mem_cons.mpr ⟨trivial, stores⟩⟩
      | some opened =>
          have found := World.respond_zip_open zipPath responds
          exact ⟨kept.trans same, found.trans (World.entries_congr same),
            List.forall_mem_cons.mpr ⟨trivial, stores⟩⟩
  | strerrorOpen =>
      obtain ⟨same, stores⟩ := appending
      have kept := keeps rfl
      have unchanged : Truthful fileName.val content world false after := kept.trans same
      exact iff_of_true unchanged (List.forall_mem_cons.mpr ⟨trivial, stores⟩)
  | zipSourceBuffer opened =>
      obtain ⟨same, found, stores⟩ := appending
      have kept := keeps rfl
      cases answer <;>
        exact ⟨kept.trans same, found, List.forall_mem_cons.mpr ⟨trivial, stores⟩⟩
  | strerrorSource opened =>
      obtain ⟨same, found, stores⟩ := appending
      have kept := keeps rfl
      exact ⟨kept.trans same, found, List.forall_mem_cons.mpr ⟨trivial, stores⟩⟩
  | zipCloseSource opened =>
      obtain ⟨same, found, stores⟩ := appending
      have kept := World.respond_close_opened responds
      have unchanged : Truthful fileName.val content world false after := kept ▸ same
      exact iff_of_true unchanged (List.forall_mem_cons.mpr ⟨trivial, stores⟩)
  | zipFileAdd opened =>
      obtain ⟨same, rfl, stores⟩ := appending
      have kept := keeps rfl
      exact ⟨kept.trans same, Zip.file_add_added _ _ _ answer,
        List.forall_mem_cons.mpr ⟨trivial, stores⟩⟩
  | zipNameLocate archive =>
      obtain ⟨same, adds, stores⟩ := appending
      have kept := keeps rfl
      cases answer with
      | false =>
          exact ⟨kept.trans same, adds, .inl rfl, List.forall_mem_cons.mpr ⟨trivial, stores⟩⟩
      | true =>
          exact ⟨kept.trans same, adds, .inr rfl, List.forall_mem_cons.mpr ⟨trivial, stores⟩⟩
  | zipFileSetEncryption archive index =>
      obtain ⟨same, adds, located, stores⟩ := appending
      have kept := keeps rfl
      have stored : (∀ turn ∈ (⟨.zipFileSetEncryption archive index, answer⟩ :: trace :
          List (Turn (appendToZip fileName.val content zipPath password))), StoresOrFails turn) ↔
          archive.additions ≠ [] ∨
            (archive.fileSetEncryption index password answer).isSome = true := by
        rw [List.forall_mem_cons]
        exact and_iff_left stores
      exact ⟨kept.trans same, .set adds located answer,
        (set_encryption_changed adds).trans stored.symm⟩
  | zipClose archive =>
      obtain ⟨same, appends, changes⟩ := appending
      obtain ⟨closes, rfl⟩ := World.respond_close responds
      cases answer with
      | discarded =>
          have unchanged : archive.changed = false := by simpa [Zip.closes] using closes
          refine iff_of_false ?_ ?_
          · rintro ⟨encryption, longer⟩
            change before.entries = _ at longer
            rw [World.entries_congr same] at longer
            exact absurd longer (by simp)
          · intro stores
            rw [List.forall_mem_cons, ← changes, unchanged] at stores
            cases stores.2
      | failed =>
          have changed : archive.changed = true := closes
          exact ⟨same, List.forall_mem_cons.mpr ⟨trivial, changes.mp changed⟩⟩
      | written file =>
          have written : archive.changed = true ∧ archive.write noFiles = some file.entries := by
            simpa [Zip.closes] using closes
          obtain ⟨encryption, entries⟩ :=
            appended_truthful encrypted appends written.1 written.2
          exact iff_of_true ⟨encryption, entries⟩
            (List.forall_mem_cons.mpr ⟨trivial, changes.mp written.1⟩)
  | strerrorClose archive =>
      obtain ⟨same, stores⟩ := appending
      have kept := keeps rfl
      have unchanged : Truthful fileName.val content world false after := kept.trans same
      exact iff_of_true unchanged (List.forall_mem_cons.mpr ⟨trivial, stores⟩)
  | semPost result =>
      have kept := keeps rfl
      change Truthful _ _ _ _ _ ↔ _
      rw [Truthful.congr kept, List.forall_mem_cons]
      exact appending.trans (and_iff_right trivial).symm

/-- `append_to_zip` is truthful just if the entry was added, or the encryption of
an older one set, whenever it got that far. -/
theorem append_to_zip_truthful_iff (fileName : FileName) {world world' : World} {result : Bool}
    {trace : List (Turn (appendToZip fileName.val content zipPath password))}
    (encrypted : ∀ entry ∈ world.entries, entry.encryption ≠ .none)
    (returned : Returned (appendToZip fileName.val content zipPath password) libraryEnv world
      trace result world') :
    Truthful fileName.val content world result world' ↔ ∀ turn ∈ trace, StoresOrFails turn :=
  (append_contract fileName content zipPath password world encrypted).returned
    ⟨rfl, nofun⟩ returned

end

/-- A second entry is stored. -/
theorem append_to_zip_truthful_second :
    ∃ trace result world', Returned (appendToZip (ascii "b") (ascii "second") localZipPath
        zipPassphrase) libraryEnv oneEntry trace result world' ∧
      result = true ∧ Truthful (ascii "b") (ascii "second") oneEntry result world' := by
  have found : ∃ trace result world', Returned (appendToZip (ascii "b") (ascii "second")
      localZipPath zipPassphrase) libraryEnv oneEntry trace result world' ∧
      (result && decide (∀ turn ∈ trace, StoresOrFails turn)) = true :=
    exists_returned_of_perform (smoothly 8) _ _ (by decide +kernel)
  obtain ⟨trace, result, world', returned, outcome⟩ := found
  obtain ⟨rfl, stores⟩ := Bool.and_eq_true_iff.mp outcome
  have encrypted : ∀ entry ∈ oneEntry.entries, entry.encryption ≠ .none := by decide
  have truthful := append_to_zip_truthful_iff ⟨ascii "b", by decide⟩ encrypted returned
  exact ⟨trace, true, world', returned, rfl, truthful.mpr (of_decide_eq_true stores)⟩

/-- A name that is not UTF-8 is refused, and the append reported as done. -/
theorem refused_name_reported_stored :
    ¬ ∀ (fileName : FileName) (content zipPath password : Bytes) (world world' : World)
        (trace : List (Turn (appendToZip fileName.val content zipPath password))) (result : Bool),
      (∀ entry ∈ world.entries, entry.encryption ≠ .none) →
      Returned (appendToZip fileName.val content zipPath password) libraryEnv world
        trace result world' →
      Truthful fileName.val content world result world' := by
  intro truthful
  have found : ∃ trace result world', Returned (appendToZip [0xff] (ascii "text") localZipPath
      zipPassphrase) libraryEnv ⟨1, true, none, none, []⟩ trace result world' ∧
      (result && world'.localZip.isNone) = true :=
    exists_returned_of_perform (smoothly 8) _ _ (by decide +kernel)
  obtain ⟨trace, result, world', returned, outcome⟩ := found
  obtain ⟨rfl, absent⟩ := Bool.and_eq_true_iff.mp outcome
  obtain ⟨encryption, entries⟩ :=
    truthful ⟨[0xff], by decide⟩ _ _ _ _ world' trace true
      (fun _ member => absurd member List.not_mem_nil) returned
  rw [World.entries, Option.isNone_iff_eq_none.mp absent] at entries
  cases entries

end FileTransfer
