import FileTransfer.Archive.NameTable

/-!
# The table of names as a map

What the table means is a map from names to two indices. The chains, their
number and the order of the entries do not show: each operation of the table is
one on the map, and the table stays well formed whatever allocations fail.
-/

namespace FileTransfer

set_option autoImplicit false

open Containers

/-- The index a name had in the file and the one it has now, -1 for none. -/
abbrev IndexMap := Bytes → Option (Int × Int)

def indexMap (entries : List HashEntry) : IndexMap := fun name =>
  (entries.find? fun entry => entry.name = name).map fun entry =>
    (entry.origIndex, entry.currentIndex)

theorem index_map_perm {entries entries' : List HashEntry} (perm : entries.Perm entries')
    (distinct : (entries.map HashEntry.name).Nodup) : indexMap entries = indexMap entries' := by
  funext name
  unfold indexMap
  rw [find_key_perm HashEntry.name perm distinct name]

theorem index_map_cons (entry : HashEntry) (entries : List HashEntry) :
    indexMap (entry :: entries) =
      Function.update (indexMap entries) entry.name
        (some (entry.origIndex, entry.currentIndex)) := by
  funext name
  by_cases same : entry.name = name
  · subst same
    simp [indexMap]
  · rw [Function.update_of_ne (Ne.symm same)]
    simp [indexMap, same]

theorem index_map_eq_none_iff {entries : List HashEntry} {name : Bytes} :
    indexMap entries name = none ↔ name ∉ entries.map HashEntry.name := by
  simp [indexMap, List.find?_eq_none]

theorem index_map_replace {entry entry' : HashEntry} (entries : List HashEntry)
    (same : entry'.name = entry.name) :
    indexMap (entry' :: entries) =
      Function.update (indexMap (entry :: entries)) entry.name
        (some (entry'.origIndex, entry'.currentIndex)) := by
  rw [index_map_cons, index_map_cons, same, Function.update_idem]

theorem index_map_tail {entry : HashEntry} {entries : List HashEntry}
    (distinct : ((entry :: entries).map HashEntry.name).Nodup) :
    indexMap entries = Function.update (indexMap (entry :: entries)) entry.name none := by
  have fresh : entry.name ∉ entries.map HashEntry.name := (List.nodup_cons.mp distinct).1
  have absent : indexMap entries entry.name = none := index_map_eq_none_iff.mpr fresh
  rw [index_map_cons, Function.update_idem, ← absent, Function.update_eq_self]

namespace ZipHash

def entries (hash : ZipHash) : List HashEntry := hash.table.flatten

def names (hash : ZipHash) : IndexMap := indexMap hash.entries

def Sized (size : Nat) : Prop := ∃ exponent ≤ 31, size = 2 ^ exponent

structure Sound (hash : ZipHash) : Prop where
  placed : Placed HashEntry.hashValue hash.table
  coded : ∀ entry ∈ hash.entries, entry.hashValue = hashString entry.name
  distinct : (hash.entries.map HashEntry.name).Nodup
  counted : hash.nentries = hash.entries.length
  sized : hash.table = [] ∨ Sized hash.tableSize

theorem sized_pos {size : Nat} (sized : Sized size) : 0 < size := by
  obtain ⟨exponent, _, rfl⟩ := sized
  exact Nat.two_pow_pos exponent

theorem sound_new : new.Sound where
  placed := placed_replicate _ 0
  coded := by simp [new, entries]
  distinct := by simp [new, entries]
  counted := rfl
  sized := .inl rfl

@[simp] theorem names_new : new.names = fun _ => none := rfl

section

variable {hash hash' : ZipHash} {name : Bytes}

/-- Entries carry their own hash value, so the comparison of hash values is
that of names. -/
theorem Sound.same_name_iff (sound : hash.Sound) {entry : HashEntry}
    (there : entry ∈ hash.entries) : entry.sameName name = true ↔ entry.name = name := by
  simp only [HashEntry.sameName, Bool.and_eq_true, decide_eq_true_eq]
  constructor
  · exact fun both => both.2
  · intro same
    exact ⟨by rw [sound.coded entry there, same], same⟩

theorem chain_there (name : Bytes) (allocated : hash.table ≠ []) :
    hash.table[hashString name % hash.tableSize]? = some (hash.chain name) := by
  obtain ⟨chain, there⟩ := selected_chain (List.length_pos_iff.mpr allocated) (hashString name)
  change hash.table[hashString name % hash.tableSize]? = some chain at there
  rw [there, ZipHash.chain, there, Option.getD_some]

theorem chain_subset : hash.chain name ⊆ hash.entries := by
  intro entry member
  unfold ZipHash.chain at member
  cases there : hash.table[hashString name % hash.tableSize]? with
  | none => simp [there] at member
  | some chain =>
      rw [there, Option.getD_some] at member
      exact List.mem_flatten.mpr ⟨chain, List.mem_of_getElem? there, member⟩

theorem Sound.find_same_name (sound : hash.Sound) :
    (hash.chain name).find? (HashEntry.sameName name) =
      (hash.chain name).find? fun entry => entry.name = name := by
  have agree : ∀ chain : List HashEntry, chain ⊆ hash.entries →
      chain.find? (HashEntry.sameName name) = chain.find? fun entry => entry.name = name := by
    intro chain
    induction chain with
    | nil => exact fun _ => rfl
    | cons head tail ih =>
        intro among
        obtain ⟨there, rest⟩ := List.cons_subset.mp among
        rw [List.find?_cons, List.find?_cons, ih rest]
        have same : HashEntry.sameName name head = decide (head.name = name) := by
          rw [Bool.eq_iff_iff, sound.same_name_iff there, decide_eq_true_iff]
        rw [same]
  exact agree _ chain_subset

theorem Sound.find_chain (sound : hash.Sound) :
    (hash.chain name).find? (fun entry => entry.name = name) =
      hash.entries.find? fun entry => entry.name = name := by
  by_cases allocated : hash.table = []
  · have nothing : hash.chain name = [] := by simp [ZipHash.chain, allocated]
    have none' : hash.entries = [] := by simp [entries, allocated]
    rw [nothing, none']
  · exact sound.placed.find_eq sound.coded sound.distinct (chain_there _ allocated)

theorem Sound.names_eq (sound : hash.Sound) :
    hash.names name =
      ((hash.chain name).find? fun entry => entry.name = name).map fun entry =>
        (entry.origIndex, entry.currentIndex) := by
  rw [sound.find_chain, names, indexMap]

theorem Sound.lookup_eq (sound : hash.Sound) (unchanged : Bool) :
    hash.lookup name unchanged =
      ((hash.names name).map fun indices =>
        if unchanged then indices.1 else indices.2).getD (-1) := by
  unfold lookup
  by_cases nonempty : 0 < hash.nentries
  · rw [if_pos nonempty, sound.names_eq]
    cases (hash.chain name).find? fun entry => entry.name = name <;> rfl
  · have nothing : hash.entries = [] := by
      apply List.eq_nil_of_length_eq_zero
      have counted := sound.counted
      omega
    rw [if_neg nonempty, names, nothing]
    rfl

/-- A changed chain keeps the table sound if what is in it belongs there and
the entries of the whole are still coded, distinct and counted. -/
theorem Sound.change (sound : hash.Sound) {f : List HashEntry → List HashEntry}
    {result : List HashEntry} {count : Nat}
    (belongs : ∀ entry ∈ f (hash.chain name),
      entry.hashValue % hash.tableSize = hashString name % hash.tableSize)
    (perm : (hash.changeChain name f).entries.Perm result)
    (coded : ∀ entry ∈ result, entry.hashValue = hashString entry.name)
    (distinct : (result.map HashEntry.name).Nodup) (counted : count = result.length) :
    Sound { hash.changeChain name f with nentries := count } ∧
      { hash.changeChain name f with nentries := count }.names = indexMap result := by
  have distinct' := (perm.map HashEntry.name).nodup_iff.mpr distinct
  refine ⟨⟨?_, fun entry there => coded entry (perm.mem_iff.mp there), distinct', ?_, ?_⟩,
    index_map_perm perm distinct'⟩
  · apply sound.placed.modify
    intro chain there entry member
    have same : chain = hash.chain name := by rw [ZipHash.chain, there, Option.getD_some]
    exact belongs entry (same ▸ member)
  · exact counted.trans perm.length_eq.symm
  · rcases sound.sized with empty | sized
    · exact .inl (by simp [changeChain, empty])
    · refine .inr ?_
      have length : { hash.changeChain name f with nentries := count }.tableSize =
          hash.tableSize := List.length_modify ..
      rw [length]
      exact sized

theorem split_found {entry : HashEntry}
    (found : (hash.chain name).find? (HashEntry.sameName name) = some entry) :
    ∃ rest, hash.entries.Perm (entry :: rest) ∧
      (hash.changeChain name (·.eraseP (HashEntry.sameName name))).entries.Perm rest ∧
      ∀ f : HashEntry → HashEntry, (hash.changeEntry name f).entries.Perm (f entry :: rest) := by
  have allocated : hash.table ≠ [] := by
    intro empty
    rw [ZipHash.chain, empty] at found
    cases found
  obtain ⟨others, whole, changed⟩ := flatten_modify_perm (chain_there name allocated)
  refine ⟨(hash.chain name).eraseP (HashEntry.sameName name) ++ others, ?_, changed _, ?_⟩
  · exact whole.trans ((perm_of_find _ found).append_right others)
  · intro f
    exact (changed _).trans ((modify_first_perm _ f found).append_right others)

theorem Sound.chain_code (sound : hash.Sound) {entry : HashEntry}
    (member : entry ∈ hash.chain name) :
    entry.hashValue % hash.tableSize = hashString name % hash.tableSize := by
  have allocated : hash.table ≠ [] := by
    intro empty
    rw [ZipHash.chain, empty] at member
    cases member
  exact sound.placed _ _ (chain_there _ allocated) entry member

theorem Sound.found_name (sound : hash.Sound) {entry : HashEntry}
    (found : (hash.chain name).find? (HashEntry.sameName name) = some entry) :
    entry.name = name ∧ hash.names name = some (entry.origIndex, entry.currentIndex) := by
  rw [sound.find_same_name] at found
  refine ⟨by simpa using List.find?_some found, ?_⟩
  rw [sound.names_eq, found, Option.map_some]

theorem Sound.absent_iff (sound : hash.Sound) :
    (hash.chain name).find? (HashEntry.sameName name) = none ↔ hash.names name = none := by
  rw [sound.find_same_name, sound.names_eq, Option.map_eq_none_iff]

theorem Sound.parts (sound : hash.Sound) {entry : HashEntry} {rest : List HashEntry}
    (perm : hash.entries.Perm (entry :: rest)) :
    ((entry :: rest).map HashEntry.name).Nodup ∧
      (∀ other ∈ entry :: rest, other.hashValue = hashString other.name) ∧
      hash.nentries = rest.length + 1 ∧ hash.names = indexMap (entry :: rest) := by
  refine ⟨(perm.map HashEntry.name).nodup_iff.mp sound.distinct, ?_, ?_,
    index_map_perm perm sound.distinct⟩
  · intro other member
    exact sound.coded other (perm.mem_iff.mpr member)
  · rw [sound.counted, perm.length_eq, List.length_cons]

theorem Sound.change_entry (sound : hash.Sound) {entry : HashEntry}
    (found : (hash.chain name).find? (HashEntry.sameName name) = some entry)
    {f : HashEntry → HashEntry} (sameName : (f entry).name = entry.name)
    (sameValue : (f entry).hashValue = entry.hashValue) :
    (hash.changeEntry name f).Sound ∧
      (hash.changeEntry name f).names =
        Function.update hash.names name (some ((f entry).origIndex, (f entry).currentIndex)) := by
  obtain ⟨rest, whole, _, changed⟩ := split_found found
  obtain ⟨distinct, coded, counted, names⟩ := sound.parts whole
  have belongs : ∀ other ∈ (hash.chain name).modify
      ((hash.chain name).findIdx (HashEntry.sameName name)) f,
      other.hashValue % hash.tableSize = hashString name % hash.tableSize := by
    intro other member
    rcases List.mem_cons.mp ((modify_first_perm _ f found).mem_iff.mp member) with rfl | member
    · rw [sameValue]
      exact sound.chain_code (List.mem_of_find?_eq_some found)
    · exact sound.chain_code (List.mem_of_mem_eraseP member)
  have coded' : ∀ other ∈ f entry :: rest, other.hashValue = hashString other.name := by
    intro other member
    rcases List.mem_cons.mp member with rfl | member
    · rw [sameValue, sameName]
      exact coded entry List.mem_cons_self
    · exact coded other (List.mem_cons_of_mem entry member)
  have distinct' : ((f entry :: rest).map HashEntry.name).Nodup := by
    rw [List.map_cons, sameName]
    exact distinct
  obtain ⟨sound', names'⟩ := sound.change
    (f := fun chain => chain.modify (chain.findIdx (HashEntry.sameName name)) f)
    belongs (changed f) coded' distinct' counted
  refine ⟨sound', names'.trans ?_⟩
  rw [index_map_replace rest sameName, names, (sound.found_name found).1]

theorem Sound.erase_entry (sound : hash.Sound) {entry : HashEntry}
    (found : (hash.chain name).find? (HashEntry.sameName name) = some entry) :
    let erased := { hash.changeChain name (·.eraseP (HashEntry.sameName name)) with
      nentries := hash.nentries - 1 }
    erased.Sound ∧ erased.names = Function.update hash.names name none := by
  obtain ⟨rest, whole, erased, _⟩ := split_found found
  obtain ⟨distinct, coded, counted, names⟩ := sound.parts whole
  have belongs : ∀ other ∈ (hash.chain name).eraseP (HashEntry.sameName name),
      other.hashValue % hash.tableSize = hashString name % hash.tableSize :=
    fun other member => sound.chain_code (List.mem_of_mem_eraseP member)
  obtain ⟨sound', names'⟩ := sound.change belongs erased
    (fun other member => coded other (List.mem_cons_of_mem entry member))
    (List.nodup_cons.mp distinct).2 (by omega : hash.nentries - 1 = rest.length)
  refine ⟨sound', names'.trans ?_⟩
  rw [index_map_tail distinct, names, (sound.found_name found).1]

theorem Sound.push_entry (sound : hash.Sound) (allocated : hash.table ≠ [])
    (absent : hash.names name = none) {entry : HashEntry} (named : entry.name = name)
    (valued : entry.hashValue = hashString name) :
    let grown := { hash.changeChain name (entry :: ·) with nentries := hash.nentries + 1 }
    grown.Sound ∧
      grown.names =
        Function.update hash.names name (some (entry.origIndex, entry.currentIndex)) := by
  obtain ⟨others, whole, changed⟩ := flatten_modify_perm (chain_there name allocated)
  have pushed : (hash.changeChain name (entry :: ·)).entries.Perm (entry :: hash.entries) :=
    (changed (entry :: ·)).trans (whole.symm.cons entry)
  have belongs : ∀ other ∈ entry :: hash.chain name,
      other.hashValue % hash.tableSize = hashString name % hash.tableSize := by
    intro other member
    rcases List.mem_cons.mp member with rfl | member
    · rw [valued]
    · exact sound.chain_code member
  have coded : ∀ other ∈ entry :: hash.entries, other.hashValue = hashString other.name := by
    intro other member
    rcases List.mem_cons.mp member with rfl | member
    · rw [valued, named]
    · exact sound.coded other member
  have fresh : name ∉ hash.entries.map HashEntry.name := index_map_eq_none_iff.mp absent
  have distinct : ((entry :: hash.entries).map HashEntry.name).Nodup := by
    rw [List.map_cons, named]
    exact List.nodup_cons.mpr ⟨fresh, sound.distinct⟩
  obtain ⟨sound', names'⟩ := sound.change belongs pushed coded distinct
    (by rw [sound.counted, List.length_cons] : hash.nentries + 1 = (entry :: hash.entries).length)
  refine ⟨sound', names'.trans ?_⟩
  rw [index_map_cons, named]
  rfl

theorem Sound.resize (sound : hash.Sound) {newSize : Nat} (sized : Sized newSize) {memory : Bool}
    (resizes : hash.resize newSize memory = some hash') :
    hash'.Sound ∧ hash'.names = hash.names ∧ hash'.nentries = hash.nentries ∧
      hash'.tableSize = newSize := by
  unfold ZipHash.resize at resizes
  split at resizes
  · rename_i same
    cases resizes
    exact ⟨sound, rfl, rfl, same.symm⟩
  split at resizes
  case isFalse => cases resizes
  cases resizes
  have positive := sized_pos sized
  by_cases nonempty : 0 < hash.nentries
  · rw [if_pos nonempty]
    have perm := rehash_perm HashEntry.hashValue hash.table positive
    have length := length_rehash HashEntry.hashValue hash.table positive
    have distinct := (perm.map HashEntry.name).nodup_iff.mpr sound.distinct
    refine ⟨⟨placed_rehash positive, ?_, distinct, ?_, .inr ?_⟩, index_map_perm perm distinct,
      rfl, length⟩
    · intro entry there
      exact sound.coded entry (perm.mem_iff.mp there)
    · exact sound.counted.trans perm.length_eq.symm
    · rw [tableSize, length]
      exact sized
  · rw [if_neg nonempty]
    have counted := sound.counted
    have nothing : hash.entries = [] := List.eq_nil_of_length_eq_zero (by omega)
    have nothing' : (List.replicate newSize ([] : List HashEntry)).flatten = [] := by simp
    refine ⟨⟨placed_replicate _ newSize, ?_, ?_, ?_, .inr ?_⟩, ?_, rfl, List.length_replicate⟩
    · intro entry there
      rw [entries, nothing'] at there
      cases there
    · rw [entries, nothing']
      exact List.nodup_nil
    · rw [entries, nothing', List.length_nil]
      change hash.nentries = 0
      omega
    · rw [tableSize, List.length_replicate]
      exact sized
    · rw [names, names, entries, nothing', nothing]

end

theorem sized_min : Sized hashMinSize := ⟨8, by decide, rfl⟩

theorem sized_double {size : Nat} (sized : Sized size) (small : size < hashMaxSize) :
    Sized (size * 2) := by
  obtain ⟨exponent, _, rfl⟩ := sized
  have below : exponent < 31 := (Nat.pow_lt_pow_iff_right (a := 2) (by decide)).mp small
  exact ⟨exponent + 1, below, (Nat.pow_succ 2 exponent).symm⟩

theorem sized_half {size : Nat} (sized : Sized size) (big : hashMinSize < size) :
    Sized (size / 2) := by
  obtain ⟨exponent, bound, rfl⟩ := sized
  have above : 8 < exponent := (Nat.pow_lt_pow_iff_right (a := 2) (by decide)).mp big
  refine ⟨exponent - 1, by omega, ?_⟩
  rw [Nat.pow_sub_one (by decide) (by omega)]

theorem sized_shrunk (nentries : Nat) {newSize : Nat} (sized : Sized newSize) :
    Sized (shrunkSize nentries newSize) := by
  induction newSize using shrunkSize.induct nentries with
  | case1 newSize sparse ih =>
      rw [shrunkSize, if_pos sparse]
      exact ih (sized_half sized sparse.2)
  | case2 newSize enough =>
      rw [shrunkSize, if_neg enough]
      exact sized

theorem to_nat_round_up {v : UInt32} (positive : 0 < v.toNat) (bound : v.toNat ≤ 2 ^ 31) :
    (roundUp v).toNat = 2 ^ (v.toNat - 1).size := by
  have size : (v.toNat - 1).size ≤ 31 := Nat.size_le.mpr (by omega)
  have spreads := (spreads_bits_one (v.toNat - 1)).double.double.double.double.double
  have succ := spreads.succ_eq (by omega)
  have pred : (v - 1).toNat = v.toNat - 1 := by
    apply UInt32.toNat_sub_of_le
    rw [UInt32.le_iff_toNat_le]
    exact positive
  have small : 2 ^ (v.toNat - 1).size ≤ 2 ^ 31 := Nat.pow_le_pow_right (by decide) size
  rw [← succ] at small ⊢
  simp only [roundUp, UInt32.toNat_add, UInt32.toNat_or, UInt32.toNat_shiftRight, pred]
  exact Nat.mod_eq_of_lt (Nat.lt_of_le_of_lt small (by decide))

theorem sized_for_capacity {capacity : Nat} (positive : 0 < capacity) :
    Sized (sizeForCapacity capacity) := by
  unfold sizeForCapacity
  split
  · exact ⟨31, le_rfl, rfl⟩
  · rename_i small
    have bound : min (capacity * 4 / 3) 0xffffffff ≤ 2 ^ 31 := Nat.le_of_not_lt small
    have exact' : (min (capacity * 4 / 3) 0xffffffff).toUInt32.toNat =
        min (capacity * 4 / 3) 0xffffffff := by
      rw [Nat.toUInt32_eq, UInt32.toNat_ofNat', Nat.mod_eq_of_lt (by omega)]
    refine ⟨_, ?_, to_nat_round_up (by omega) (by omega)⟩
    exact Nat.size_le.mpr (by omega)

end ZipHash

namespace IndexMap

/-- The name cannot be added: it has an index of the kind asked for. -/
def Taken (names : IndexMap) (name : Bytes) (unchanged : Bool) : Prop :=
  ∃ indices, names name = some indices ∧
    ((unchanged = true ∧ indices.1 ≠ -1) ∨ indices.2 ≠ -1)

def put (names : IndexMap) (name : Bytes) (index : Nat) (unchanged : Bool) : IndexMap :=
  Function.update names name
    (some (if unchanged then index else ((names name).map Prod.fst).getD (-1), index))

def reverted (names : IndexMap) : IndexMap := fun name =>
  (names name).bind fun indices =>
    if indices.1 = -1 then none else some (indices.1, indices.1)

/-- What an addition to the map may return and leave. The last case is that of
an entry made before the table could not be enlarged. -/
inductive Adds (names : IndexMap) (name : Bytes) (index : Nat) (unchanged : Bool)
    (memory : AddMemory) : Option ZipError → IndexMap → Prop where
  | inval (large : 2 ^ 63 ≤ index) : Adds names name index unchanged memory (some .erInval) names
  | taken (small : index < 2 ^ 63) (taken : names.Taken name unchanged) :
      Adds names name index unchanged memory (some .erExists) names
  | added (small : index < 2 ^ 63) (free : ¬ names.Taken name unchanged) :
      Adds names name index unchanged memory none (names.put name index unchanged)
  | noMemory (small : index < 2 ^ 63) (lacks : memory.table = false ∨ memory.entry = false) :
      Adds names name index unchanged memory (some .erMemory) names
  | halfAdded (small : index < 2 ^ 63) (absent : names name = none)
      (lacks : memory.growth = false) :
      Adds names name index unchanged memory (some .erMemory)
        (Function.update names name (some (-1, memory.stale)))

/-- A change of size that may follow fails only for want of memory. -/
def ResizeError (memory : Bool) (error : Option ZipError) : Prop :=
  error = none ∨ (error = some .erMemory ∧ memory = false)

inductive Deletes (names : IndexMap) (name : Bytes) (memory : Bool) :
    Option ZipError → IndexMap → Prop where
  | noent (absent : names name = none) : Deletes names name memory (some .erNoent) names
  | erased {current : Int} {error : Option ZipError} (there : names name = some (-1, current))
      (resize : ResizeError memory error) :
      Deletes names name memory error (Function.update names name none)
  | hidden {orig current : Int} (there : names name = some (orig, current)) (kept : orig ≠ -1) :
      Deletes names name memory none (Function.update names name (some (orig, -1)))

inductive Allows (names : IndexMap) : HashCall → HashReply → IndexMap → Prop where
  | add {name : Bytes} {index : Nat} {unchanged : Bool} {memory : AddMemory}
      {error : Option ZipError} {names' : IndexMap}
      (adds : names.Adds name index unchanged memory error names') :
      Allows names (.add name index unchanged memory) (.status error) names'
  | delete {name : Bytes} {memory : Bool} {error : Option ZipError} {names' : IndexMap}
      (deletes : names.Deletes name memory error names') :
      Allows names (.delete name memory) (.status error) names'
  | lookup {name : Bytes} {unchanged : Bool} :
      Allows names (.lookup name unchanged)
        (.index (((names name).map fun indices =>
          if unchanged then indices.1 else indices.2).getD (-1))) names
  | reserveCapacity {capacity : Nat} {memory : Bool} {error : Option ZipError}
      (resize : ResizeError memory error) :
      Allows names (.reserveCapacity capacity memory) (.status error) names
  | revert {memory : Bool} {error : Option ZipError} (resize : ResizeError memory error) :
      Allows names (.revert memory) (.status error) names.reverted

inductive AllowsAll : IndexMap → List HashCall → List HashReply → IndexMap → Prop where
  | nil {names : IndexMap} : AllowsAll names [] [] names
  | cons {names names' names'' : IndexMap} {call : HashCall} {reply : HashReply}
      {calls : List HashCall} {replies : List HashReply}
      (allows : names.Allows call reply names')
      (rest : AllowsAll names' calls replies names'') :
      AllowsAll names (call :: calls) (reply :: replies) names''

end IndexMap

namespace ZipHash

variable {hash hash' : ZipHash} {name : Bytes}

theorem Sound.set_indices (sound : hash.Sound) {entry : HashEntry}
    (found : (hash.chain name).find? (HashEntry.sameName name) = some entry) (index : Nat)
    (unchanged : Bool) :
    (hash.setIndices name index unchanged).Sound ∧
      (hash.setIndices name index unchanged).names = hash.names.put name index unchanged := by
  obtain ⟨sound', names⟩ := sound.change_entry found
    (f := fun entry => { entry with
      origIndex := if unchanged then index else entry.origIndex
      currentIndex := index }) rfl rfl
  refine ⟨sound', names.trans ?_⟩
  rw [IndexMap.put, (sound.found_name found).2]
  rfl

theorem Sound.exists_found (sound : hash.Sound) {indices : Int × Int}
    (there : hash.names name = some indices) :
    ∃ entry, (hash.chain name).find? (HashEntry.sameName name) = some entry := by
  cases found : (hash.chain name).find? (HashEntry.sameName name) with
  | none =>
      rw [sound.absent_iff.mp found] at there
      cases there
  | some entry => exact ⟨entry, rfl⟩

theorem put_update (names : IndexMap) (index : Nat) (unchanged : Bool) {stale : Int}
    (absent : names name = none) :
    IndexMap.put (Function.update names name (some (-1, stale))) name index unchanged =
      names.put name index unchanged := by
  unfold IndexMap.put
  rw [Function.update_idem, Function.update_self, absent]
  rfl

theorem memory_of_resize {newSize : Nat} {memory : Bool}
    (fails : hash.resize newSize memory = none) : memory = false := by
  cases memory with
  | false => rfl
  | true =>
      unfold ZipHash.resize at fails
      split at fails <;> simp at fails

theorem Sound.add_entry (sound : hash.Sound) (allocated : hash.table ≠ [])
    (absent : hash.names name = none) {index : Nat} (small : index < 2 ^ 63) (unchanged : Bool)
    (memory : AddMemory) :
    (hash.addEntry name index unchanged memory).2.Sound ∧
      hash.names.Adds name index unchanged memory (hash.addEntry name index unchanged memory).1
        (hash.addEntry name index unchanged memory).2.names := by
  unfold addEntry
  split
  case isFalse lacks => exact ⟨sound, .noMemory small (.inr (by simpa using lacks))⟩
  let entry : HashEntry := ⟨name, -1, memory.stale, hashString name⟩
  obtain ⟨grown, names⟩ := sound.push_entry allocated absent (rfl : entry.name = name) rfl
  have free : ¬ hash.names.Taken name unchanged := by
    rintro ⟨indices, there, _⟩
    rw [absent] at there
    cases there
  have finish : ∀ table : ZipHash, table.Sound →
      table.names = Function.update hash.names name (some (-1, memory.stale)) →
      (table.setIndices name index unchanged).Sound ∧
        hash.names.Adds name index unchanged memory none
          (table.setIndices name index unchanged).names := by
    intro table sound' names'
    have there : table.names name = some (-1, memory.stale) := by
      rw [names', Function.update_self]
    obtain ⟨entry, found⟩ := sound'.exists_found there
    obtain ⟨sound'', names''⟩ := sound'.set_indices found index unchanged
    rw [names'', names', put_update _ _ _ absent]
    exact ⟨sound'', .added small free⟩
  have allocated' : hash.table.modify (hashString name % hash.tableSize)
      (⟨name, -1, memory.stale, hashString name⟩ :: ·) ≠ [] := by
    intro empty
    apply allocated
    rw [← List.length_eq_zero_iff] at empty ⊢
    rwa [List.length_modify] at empty
  simp only
  split
  · rename_i full
    simp only [Bool.and_eq_true, decide_eq_true_eq] at full
    split
    · rename_i fails
      rw [names]
      exact ⟨grown, .halfAdded small absent (memory_of_resize fails)⟩
    · rename_i resized resizes
      have size := sized_double (grown.sized.resolve_left allocated') full.2
      obtain ⟨sound', names', _, _⟩ := grown.resize size resizes
      exact finish _ sound' (names'.trans names)
  · exact finish _ grown names

theorem Sound.add (sound : hash.Sound) (name : Bytes) (index : Nat) (unchanged : Bool)
    (memory : AddMemory) :
    (hash.add name index unchanged memory).2.Sound ∧
      hash.names.Adds name index unchanged memory (hash.add name index unchanged memory).1
        (hash.add name index unchanged memory).2.names := by
  unfold ZipHash.add
  split
  · exact ⟨sound, .inval ‹_›⟩
  rename_i notLarge
  have small : index < 2 ^ 63 := Nat.lt_of_not_le notLarge
  split
  · rename_i fails
    refine ⟨sound, .noMemory small (.inl ?_)⟩
    split at fails
    · exact memory_of_resize fails
    · cases fails
  rename_i start starts
  have allocates : start.Sound ∧ start.names = hash.names ∧ start.table ≠ [] := by
    split at starts
    · obtain ⟨sound', names, _, size⟩ := sound.resize sized_min starts
      refine ⟨sound', names, ?_⟩
      intro empty
      rw [tableSize, empty] at size
      cases size
    · rename_i nonempty
      cases starts
      refine ⟨sound, rfl, ?_⟩
      intro empty
      exact nonempty (by rw [tableSize, empty, List.length_nil])
  obtain ⟨sound', names, allocated⟩ := allocates
  rw [← names]
  split
  · rename_i misses
    exact sound'.add_entry allocated (sound'.absent_iff.mp misses) small unchanged memory
  · rename_i entry found
    have there := (sound'.found_name found).2
    split
    · rename_i taken
      refine ⟨sound', .taken small ⟨_, there, ?_⟩⟩
      simpa using taken
    · rename_i free
      obtain ⟨sound'', names''⟩ := sound'.set_indices found index unchanged
      rw [names'']
      refine ⟨sound'', .added small ?_⟩
      rintro ⟨indices, there', taken⟩
      rw [there, Option.some.injEq] at there'
      subst there'
      apply free
      simpa using taken

/-- A new name is entered just when there is memory for its entry, and for the
first table where there is none yet. -/
theorem Sound.add_new (sound : hash.Sound) (absent : hash.names name = none) {index : Nat}
    (small : index < 2 ^ 63) (unchanged : Bool) {memory : AddMemory}
    (growth : memory.growth = true) :
    (hash.add name index unchanged memory).1 = none ↔
      (hash.tableSize ≠ 0 ∨ memory.table = true) ∧ memory.entry = true := by
  have entered : ∀ start : ZipHash,
      (start.addEntry name index unchanged memory).1 = none ↔ memory.entry = true := by
    intro start
    unfold addEntry
    cases memory.entry with
    | false => simp
    | true =>
        simp only [if_true, iff_true]
        split
        · split
          · rename_i fails
            rw [memory_of_resize fails] at growth
            cases growth
          · rfl
        · rfl
  have counted : ¬ 0x8000000000000000 ≤ index := Nat.not_le.mpr small
  unfold ZipHash.add
  rw [if_neg counted]
  split
  · rename_i fails
    split at fails
    · rename_i empty
      simp [empty, memory_of_resize fails]
    · cases fails
  · rename_i start starts
    have ready : start.Sound ∧ start.names = hash.names ∧
        (hash.tableSize ≠ 0 ∨ memory.table = true) := by
      split at starts
      · rename_i empty
        obtain ⟨sound', names, _, _⟩ := sound.resize sized_min starts
        refine ⟨sound', names, .inr ?_⟩
        cases lacks : memory.table with
        | true => rfl
        | false =>
            rw [lacks] at starts
            simp [ZipHash.resize, empty, hashMinSize] at starts
      · rename_i nonempty
        cases starts
        exact ⟨sound, rfl, .inl nonempty⟩
    obtain ⟨sound', names, allocated⟩ := ready
    rw [sound'.absent_iff.mpr (names ▸ absent)]
    simp only [entered, allocated, true_and]

theorem Sound.delete (sound : hash.Sound) (name : Bytes) (memory : Bool) :
    (hash.delete name memory).2.Sound ∧
      hash.names.Deletes name memory (hash.delete name memory).1
        (hash.delete name memory).2.names := by
  unfold ZipHash.delete
  split
  case isFalse empty =>
    have counted := sound.counted
    have nothing : hash.entries = [] := List.eq_nil_of_length_eq_zero (by omega)
    refine ⟨sound, .noent ?_⟩
    rw [names, nothing]
    rfl
  split
  · rename_i misses
    exact ⟨sound, .noent (sound.absent_iff.mp misses)⟩
  rename_i entry found
  have there := (sound.found_name found).2
  split
  case isFalse kept =>
    obtain ⟨sound', names⟩ := sound.change_entry found
      (f := fun entry => { entry with currentIndex := -1 }) rfl rfl
    rw [names]
    exact ⟨sound', .hidden there kept⟩
  rename_i added
  rw [added] at there
  obtain ⟨erased, names⟩ := sound.erase_entry found
  simp only
  split
  · rename_i sparse
    simp only [Bool.and_eq_true, decide_eq_true_eq] at sparse
    have allocated := List.ne_nil_of_length_pos (Nat.lt_trans (by decide) sparse.2)
    split
    · rename_i fails
      rw [names]
      exact ⟨erased, .erased there (.inr ⟨rfl, memory_of_resize fails⟩)⟩
    · rename_i resized resizes
      have size := sized_half (erased.sized.resolve_left allocated) sparse.2
      obtain ⟨sound', names', _, _⟩ := erased.resize size resizes
      rw [names', names]
      exact ⟨sound', .erased there (.inl rfl)⟩
  · rw [names]
    exact ⟨erased, .erased there (.inl rfl)⟩

theorem Sound.reserve_capacity (sound : hash.Sound) (capacity : Nat) (memory : Bool) :
    (hash.reserveCapacity capacity memory).2.Sound ∧
      (hash.reserveCapacity capacity memory).2.names = hash.names ∧
      IndexMap.ResizeError memory (hash.reserveCapacity capacity memory).1 := by
  unfold ZipHash.reserveCapacity
  split
  · exact ⟨sound, rfl, .inl rfl⟩
  split
  · exact ⟨sound, rfl, .inl rfl⟩
  split
  · rename_i fails
    exact ⟨sound, rfl, .inr ⟨rfl, memory_of_resize fails⟩⟩
  · rename_i zero _ _ _ resizes
    obtain ⟨sound', names, _, _⟩ :=
      sound.resize (sized_for_capacity (Nat.pos_of_ne_zero zero)) resizes
    exact ⟨sound', names, .inl rfl⟩

theorem reverted_update (names : IndexMap) (indices : Int × Int) :
    IndexMap.reverted (Function.update names name (some indices)) =
      Function.update names.reverted name
        (if indices.1 = -1 then none else some (indices.1, indices.1)) := by
  funext other
  by_cases same : other = name
  · rw [same, Function.update_self, IndexMap.reverted, Function.update_self, Option.bind_some]
  · rw [Function.update_of_ne same, IndexMap.reverted, Function.update_of_ne same]
    rfl

theorem index_map_reverted {entries : List HashEntry}
    (distinct : (entries.map HashEntry.name).Nodup) :
    indexMap (entries.filterMap revertEntry) = (indexMap entries).reverted := by
  induction entries with
  | nil => rfl
  | cons entry rest ih =>
      obtain ⟨fresh, distinct'⟩ := List.nodup_cons.mp distinct
      rw [index_map_cons, reverted_update]
      by_cases added : entry.origIndex = -1
      · have absent : (indexMap rest).reverted entry.name = none := by
          rw [IndexMap.reverted, index_map_eq_none_iff.mpr fresh, Option.bind_none]
        have drops : revertEntry entry = none := by rw [revertEntry, if_pos added]
        rw [List.filterMap_cons_none drops, if_pos added, ih distinct', ← absent,
          Function.update_eq_self]
      · have keeps : revertEntry entry = some { entry with currentIndex := entry.origIndex } := by
          rw [revertEntry, if_neg added]
        rw [List.filterMap_cons_some keeps, if_neg added, index_map_cons, ih distinct']

theorem names_reverted_sublist (entries : List HashEntry) :
    ((entries.filterMap revertEntry).map HashEntry.name).Sublist (entries.map HashEntry.name) := by
  induction entries with
  | nil => exact List.Sublist.slnil
  | cons entry rest ih =>
      by_cases added : entry.origIndex = -1
      · have drops : revertEntry entry = none := by rw [revertEntry, if_pos added]
        rw [List.filterMap_cons_none drops]
        exact ih.cons entry.name
      · have keeps : revertEntry entry = some { entry with currentIndex := entry.origIndex } := by
          rw [revertEntry, if_neg added]
        rw [List.filterMap_cons_some keeps]
        exact ih.cons_cons entry.name

theorem length_reverted (entries : List HashEntry) :
    (entries.filterMap revertEntry).length =
      entries.length - entries.countP fun entry => entry.origIndex = -1 := by
  have kept : ∀ entry, (revertEntry entry).isSome = !decide (entry.origIndex = -1) := by
    intro entry
    by_cases added : entry.origIndex = -1 <;> simp [revertEntry, added]
  rw [List.length_filterMap_eq_countP, List.countP_congr fun entry _ => by rw [kept entry],
    List.length_eq_countP_add_countP (fun entry => decide (entry.origIndex = -1))]
  simp

theorem reverted_code {before : List HashEntry} {entry : HashEntry}
    (member : entry ∈ before.filterMap revertEntry) :
    ∃ old ∈ before, entry.hashValue = old.hashValue ∧ entry.name = old.name := by
  obtain ⟨old, there, reverts⟩ := List.mem_filterMap.mp member
  unfold revertEntry at reverts
  split at reverts
  · cases reverts
  · cases reverts
    exact ⟨old, there, rfl, rfl⟩

theorem Sound.revert (sound : hash.Sound) (memory : Bool) :
    (hash.revert memory).2.Sound ∧ (hash.revert memory).2.names = hash.names.reverted ∧
      IndexMap.ResizeError memory (hash.revert memory).1 := by
  unfold ZipHash.revert
  generalize counts : (hash.nentries - hash.table.flatten.countP fun entry =>
    decide (entry.origIndex = -1)) = count
  have flat : (hash.table.map (·.filterMap revertEntry)).flatten =
      hash.entries.filterMap revertEntry := List.filterMap_flatten.symm
  have sound' : Sound ⟨count, hash.table.map (·.filterMap revertEntry)⟩ := by
    refine ⟨?_, ?_, ?_, ?_, ?_⟩
    · apply sound.placed.map
      intro chain entry member
      obtain ⟨old, there, same, _⟩ := reverted_code member
      exact ⟨old, there, same⟩
    · intro entry there
      rw [entries, flat] at there
      obtain ⟨old, there', value, named⟩ := reverted_code there
      rw [value, named]
      exact sound.coded old there'
    · rw [entries, flat]
      exact sound.distinct.sublist (names_reverted_sublist _)
    · rw [entries, flat, length_reverted, ← sound.counted, ← counts]
      rfl
    · rcases sound.sized with empty | sized
      · exact .inl (by simp [empty])
      · exact .inr (by simpa [tableSize] using sized)
  have names : ZipHash.names ⟨count, hash.table.map (·.filterMap revertEntry)⟩ =
      hash.names.reverted := by
    rw [ZipHash.names, entries, flat]
    exact index_map_reverted sound.distinct
  simp only
  split
  · rename_i sparse
    simp only [Bool.and_eq_true, decide_eq_true_eq] at sparse
    have allocated := List.ne_nil_of_length_pos (Nat.lt_trans (by decide) sparse.2)
    split
    · rename_i fails
      exact ⟨sound', names, .inr ⟨rfl, memory_of_resize fails⟩⟩
    · rename_i resized resizes
      have size := sized_shrunk count
        (sized_half (sound'.sized.resolve_left allocated) sparse.2)
      obtain ⟨sound'', names', _, _⟩ := sound'.resize size resizes
      exact ⟨sound'', names'.trans names, .inl rfl⟩
  · exact ⟨sound', names, .inl rfl⟩

theorem Sound.call (sound : hash.Sound) (call : HashCall) :
    (hash.call call).2.Sound ∧
      hash.names.Allows call (hash.call call).1 (hash.call call).2.names := by
  cases call with
  | add name index unchanged memory =>
      obtain ⟨sound', adds⟩ := sound.add name index unchanged memory
      exact ⟨sound', .add adds⟩
  | delete name memory =>
      obtain ⟨sound', deletes⟩ := sound.delete name memory
      exact ⟨sound', .delete deletes⟩
  | lookup name unchanged =>
      refine ⟨sound, ?_⟩
      rw [ZipHash.call, sound.lookup_eq]
      exact .lookup
  | reserveCapacity capacity memory =>
      obtain ⟨sound', names, error⟩ := sound.reserve_capacity capacity memory
      refine ⟨sound', ?_⟩
      change hash.names.Allows _ _ (hash.reserveCapacity capacity memory).2.names
      rw [names]
      exact .reserveCapacity error
  | revert memory =>
      obtain ⟨sound', names, error⟩ := sound.revert memory
      refine ⟨sound', ?_⟩
      change hash.names.Allows _ _ (hash.revert memory).2.names
      rw [names]
      exact .revert error

theorem Sound.calls (sound : hash.Sound) (calls : List HashCall) :
    (hash.calls calls).2.Sound ∧
      hash.names.AllowsAll calls (hash.calls calls).1 (hash.calls calls).2.names := by
  induction calls generalizing hash with
  | nil => exact ⟨sound, .nil⟩
  | cons call calls ih =>
      obtain ⟨sound', allows⟩ := sound.call call
      obtain ⟨sound'', rest⟩ := ih sound'
      exact ⟨sound'', .cons allows rest⟩

end ZipHash

/-- Whatever calls are made on the table of names and whatever allocations
fail, every reply is one the map of names gives: the chains, the hash values
and the changes of size do not show. No name is twice in the table, each is in
the chain of its hash value, and the entries are counted. -/
theorem name_table_refines_map (calls : List HashCall) :
    IndexMap.AllowsAll (fun _ => none) calls (ZipHash.new.calls calls).1
        (ZipHash.new.calls calls).2.names ∧
      (ZipHash.new.calls calls).2.Sound :=
  (ZipHash.sound_new.calls calls).symm

end FileTransfer
