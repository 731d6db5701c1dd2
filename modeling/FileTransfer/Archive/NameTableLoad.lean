import FileTransfer.Archive.NameMap

/-!
# How full the table of names gets

As long as there is memory, the table is at most three quarters full after
every call, except at its largest size.
-/

namespace FileTransfer

set_option autoImplicit false

open Containers

namespace ZipHash

variable {hash hash' : ZipHash} {name : Bytes}

/-- At most three quarters, or the table is as large as it may be. -/
def Loaded (hash : ZipHash) : Prop :=
  hash.nentries * 4 ≤ hash.tableSize * 3 ∨ hash.tableSize = hashMaxSize

/-- The memory suffices for every allocation of the call. -/
def Plenty : HashCall → Prop
  | .add _ _ _ memory => memory.table = true ∧ memory.entry = true ∧ memory.growth = true
  | .delete _ memory | .reserveCapacity _ memory | .revert memory => memory = true
  | .lookup _ _ => True

theorem resize_of_memory (hash : ZipHash) {newSize : Nat} (positive : 0 < newSize) :
    ∃ resized, hash.resize newSize true = some resized ∧ resized.tableSize = newSize ∧
      resized.nentries = hash.nentries := by
  unfold ZipHash.resize
  by_cases same : newSize = hash.tableSize
  · exact ⟨hash, by rw [if_pos same], same.symm, rfl⟩
  · rw [if_neg same, if_pos rfl]
    refine ⟨_, rfl, ?_, rfl⟩
    by_cases nonempty : 0 < hash.nentries
    · rw [tableSize, if_pos nonempty]
      exact length_rehash _ _ positive
    · rw [tableSize, if_neg nonempty, List.length_replicate]

@[simp] theorem table_size_change_chain (hash : ZipHash) (name : Bytes)
    (f : List HashEntry → List HashEntry) :
    (hash.changeChain name f).tableSize = hash.tableSize := List.length_modify ..

theorem loaded_set_indices (loaded : hash.Loaded) (index : Nat) (unchanged : Bool) :
    (hash.setIndices name index unchanged).Loaded := by
  unfold Loaded at loaded ⊢
  rw [setIndices, changeEntry, table_size_change_chain]
  exact loaded

theorem sized_le_max {size : Nat} (sized : Sized size) : size ≤ hashMaxSize := by
  obtain ⟨exponent, bound, rfl⟩ := sized
  exact Nat.pow_le_pow_right (by decide) bound

theorem loaded_add_entry (sized : Sized hash.tableSize) (loaded : hash.Loaded) (index : Nat)
    (unchanged : Bool) {memory : AddMemory} (growth : memory.growth = true) :
    (hash.addEntry name index unchanged memory).2.Loaded := by
  unfold addEntry
  split
  case isFalse => exact loaded
  have positive := sized_pos sized
  have most := sized_le_max sized
  simp only
  let grown : ZipHash :=
    { hash.changeChain name (⟨name, -1, memory.stale, hashString name⟩ :: ·) with
      nentries := hash.nentries + 1 }
  have size : grown.tableSize = hash.tableSize := table_size_change_chain hash name _
  have count : grown.nentries = hash.nentries + 1 := rfl
  obtain ⟨resized, resizes, size', count'⟩ :=
    resize_of_memory grown (by omega : 0 < grown.tableSize * 2)
  rw [← growth] at resizes
  unfold Loaded at loaded
  split
  · rename_i full
    replace full : (decide (grown.tableSize * 3 < grown.nentries * 4) &&
      decide (grown.tableSize < hashMaxSize)) = true := full
    simp only [Bool.and_eq_true, decide_eq_true_eq] at full
    split
    · rename_i fails
      cases resizes.symm.trans fails
    · rename_i resized' resizes'
      cases resizes.symm.trans resizes'
      apply loaded_set_indices
      left
      omega
  · rename_i room
    replace room : ¬(decide (grown.tableSize * 3 < grown.nentries * 4) &&
      decide (grown.tableSize < hashMaxSize)) = true := room
    simp only [Bool.and_eq_true, decide_eq_true_eq, not_and] at room
    have kept : grown.Loaded := by
      unfold Loaded
      omega
    exact loaded_set_indices kept index unchanged

theorem loaded_add (sound : hash.Sound) (loaded : hash.Loaded) (index : Nat) (unchanged : Bool)
    {memory : AddMemory} (table : memory.table = true) (growth : memory.growth = true) :
    (hash.add name index unchanged memory).2.Loaded := by
  unfold ZipHash.add
  split
  · exact loaded
  split
  · exact loaded
  rename_i start starts
  have allocates : Sized start.tableSize ∧ start.Loaded := by
    split at starts
    · rename_i empty
      obtain ⟨resized, resizes, size, count⟩ := resize_of_memory hash (sized_pos sized_min)
      rw [table, resizes, Option.some.injEq] at starts
      subst starts
      refine ⟨size ▸ sized_min, .inl ?_⟩
      have counted := sound.counted
      have nothing : hash.entries = [] := by
        rw [entries, List.length_eq_zero_iff.mp empty, List.flatten_nil]
      rw [nothing, List.length_nil] at counted
      omega
    · rename_i nonempty
      cases starts
      refine ⟨sound.sized.resolve_left ?_, loaded⟩
      intro empty
      exact nonempty (by rw [tableSize, empty, List.length_nil])
  split
  · exact loaded_add_entry allocates.1 allocates.2 index unchanged growth
  · split
    · exact allocates.2
    · exact loaded_set_indices allocates.2 index unchanged

theorem loaded_delete (loaded : hash.Loaded) :
    (hash.delete name true).2.Loaded := by
  unfold ZipHash.delete
  unfold Loaded at loaded
  split
  case isFalse => exact loaded
  split
  · exact loaded
  split
  case isFalse =>
    unfold Loaded
    rw [changeEntry, table_size_change_chain]
    exact loaded
  simp only
  let shrunk : ZipHash :=
    { hash.changeChain name (·.eraseP (HashEntry.sameName name)) with
      nentries := hash.nentries - 1 }
  have size : shrunk.tableSize = hash.tableSize := table_size_change_chain hash name _
  have count : shrunk.nentries = hash.nentries - 1 := rfl
  split
  · rename_i sparse
    replace sparse : (decide (shrunk.nentries * 100 < shrunk.tableSize) &&
      decide (hashMinSize < shrunk.tableSize)) = true := sparse
    simp only [Bool.and_eq_true, decide_eq_true_eq] at sparse
    have big : 256 < shrunk.tableSize := sparse.2
    obtain ⟨resized, resizes, size', count'⟩ :=
      resize_of_memory shrunk (by omega : 0 < shrunk.tableSize / 2)
    split
    · rename_i fails
      cases resizes.symm.trans fails
    · rename_i resized' resizes'
      cases resizes.symm.trans resizes'
      left
      change resized.nentries * 4 ≤ resized.tableSize * 3
      omega
  · unfold Loaded
    change shrunk.nentries * 4 ≤ shrunk.tableSize * 3 ∨ shrunk.tableSize = hashMaxSize
    omega

theorem loaded_reserve_capacity (loaded : hash.Loaded) (capacity : Nat) :
    (hash.reserveCapacity capacity true).2.Loaded := by
  unfold ZipHash.reserveCapacity
  split
  · exact loaded
  rename_i nonzero
  split
  · exact loaded
  rename_i larger
  have sized := sized_for_capacity (Nat.pos_of_ne_zero nonzero)
  have most := sized_le_max sized
  obtain ⟨resized, resizes, size, count⟩ := resize_of_memory hash (sized_pos sized)
  rw [resizes]
  unfold Loaded at loaded ⊢
  change resized.nentries * 4 ≤ resized.tableSize * 3 ∨ resized.tableSize = hashMaxSize
  omega

/-- Halving stops while the table is still more than a hundredth full, or as
small as it may be. -/
theorem shrunk_size_room (nentries : Nat) {newSize : Nat} (room : nentries * 100 ≤ newSize * 2) :
    nentries * 100 ≤ shrunkSize nentries newSize * 2 := by
  induction newSize using shrunkSize.induct nentries with
  | case1 newSize sparse ih =>
      rw [shrunkSize, if_pos sparse]
      apply ih
      omega
  | case2 newSize enough =>
      rw [shrunkSize, if_neg enough]
      exact room

theorem loaded_revert (sound : hash.Sound) (loaded : hash.Loaded) :
    (hash.revert true).2.Loaded := by
  let reverted : ZipHash :=
    { nentries := hash.nentries - hash.table.flatten.countP fun entry => entry.origIndex = -1
      table := hash.table.map (·.filterMap revertEntry) }
  have size : reverted.tableSize = hash.tableSize := List.length_map _
  have count : reverted.nentries ≤ hash.nentries := Nat.sub_le _ _
  unfold Loaded at loaded
  unfold ZipHash.revert
  simp only
  split
  · rename_i sparse
    replace sparse : (decide (reverted.nentries * 100 < reverted.tableSize) &&
      decide (hashMinSize < reverted.tableSize)) = true := sparse
    simp only [Bool.and_eq_true, decide_eq_true_eq] at sparse
    have allocated : hash.table ≠ [] := by
      apply List.ne_nil_of_length_pos
      change 0 < hash.tableSize
      omega
    have sized : Sized reverted.tableSize := size ▸ sound.sized.resolve_left allocated
    have positive := sized_pos (sized_shrunk reverted.nentries (sized_half sized sparse.2))
    have half : reverted.nentries * 100 ≤ reverted.tableSize / 2 * 2 := by omega
    have room := shrunk_size_room reverted.nentries half
    obtain ⟨resized, resizes, size', count'⟩ := resize_of_memory reverted positive
    split
    · rename_i fails
      cases resizes.symm.trans fails
    · rename_i resized' resizes'
      cases resizes.symm.trans resizes'
      left
      change resized.nentries * 4 ≤ resized.tableSize * 3
      omega
  · unfold Loaded
    change reverted.nentries * 4 ≤ reverted.tableSize * 3 ∨ reverted.tableSize = hashMaxSize
    omega

theorem loaded_call (sound : hash.Sound) (loaded : hash.Loaded) {call : HashCall}
    (plenty : Plenty call) : (hash.call call).2.Loaded := by
  cases call with
  | add name index unchanged memory =>
      exact loaded_add sound loaded index unchanged plenty.1 plenty.2.2
  | delete name memory =>
      cases plenty
      exact loaded_delete loaded
  | lookup name unchanged => exact loaded
  | reserveCapacity capacity memory =>
      cases plenty
      exact loaded_reserve_capacity loaded capacity
  | revert memory =>
      cases plenty
      exact loaded_revert sound loaded

theorem loaded_calls (sound : hash.Sound) (loaded : hash.Loaded) {calls : List HashCall}
    (plenty : ∀ call ∈ calls, Plenty call) : (hash.calls calls).2.Loaded := by
  induction calls generalizing hash with
  | nil => exact loaded
  | cons call calls ih =>
      obtain ⟨first, rest⟩ := List.forall_mem_cons.mp plenty
      exact ih (sound.call call).1 (loaded_call sound loaded first) rest

end ZipHash

/-- While there is memory, the table is never more than three quarters full
after a call, unless it has its largest size. -/
theorem name_table_loaded {calls : List HashCall} (plenty : ∀ call ∈ calls, ZipHash.Plenty call) :
    (ZipHash.new.calls calls).2.nentries * 4 ≤ (ZipHash.new.calls calls).2.tableSize * 3 ∨
      (ZipHash.new.calls calls).2.tableSize = hashMaxSize :=
  ZipHash.loaded_calls ZipHash.sound_new (.inl (Nat.le_refl 0)) plenty

def addOne : List HashCall :=
  [.reserveCapacity 1 true, .add (ascii "a.txt") 0 false ⟨true, true, true, 0⟩]

theorem name_table_loaded_one :
    (ZipHash.new.calls addOne).2.nentries * 4 ≤ (ZipHash.new.calls addOne).2.tableSize * 3 ∨
      (ZipHash.new.calls addOne).2.tableSize = hashMaxSize :=
  name_table_loaded (by simp [addOne, ZipHash.Plenty])

end FileTransfer
