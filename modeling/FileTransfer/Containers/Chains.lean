import Mathlib.Data.List.Basic
import Mathlib.Data.List.Nodup
import Mathlib.Data.List.Perm.Basic

/-!
# Chains of entries

A chained table keeps its entries in a list of chains; the code of an entry
selects its chain. What a chain operation does to the whole is said on the
entries of all chains together, up to their order: an operation on one chain
leaves a rest that it does not touch. With distinct keys the order does not
matter to a search by key.
-/

namespace FileTransfer.Containers

set_option autoImplicit false

variable {E K : Type}

section Chain

variable (p : E → Bool)

theorem perm_of_find {entry : E} {chain : List E} (found : chain.find? p = some entry) :
    chain.Perm (entry :: chain.eraseP p) := by
  induction chain with
  | nil => cases found
  | cons head tail ih =>
      by_cases matches' : p head
      · rw [List.find?_cons_of_pos matches', Option.some.injEq] at found
        rw [List.eraseP_cons_of_pos matches', found]
      · rw [List.find?_cons_of_neg matches'] at found
        rw [List.eraseP_cons_of_neg matches']
        exact ((ih found).cons head).trans (List.Perm.swap entry head _)

theorem modify_first_perm (f : E → E) {entry : E} {chain : List E}
    (found : chain.find? p = some entry) :
    (chain.modify (chain.findIdx p) f).Perm (f entry :: chain.eraseP p) := by
  induction chain with
  | nil => cases found
  | cons head tail ih =>
      by_cases matches' : p head
      · rw [List.find?_cons_of_pos matches', Option.some.injEq] at found
        rw [List.eraseP_cons_of_pos matches', List.findIdx_cons, matches', found]
        exact List.Perm.refl _
      · rw [List.find?_cons_of_neg matches'] at found
        have misses : p head = false := by simpa using matches'
        rw [List.eraseP_cons_of_neg matches', List.findIdx_cons, misses]
        exact ((ih found).cons head).trans (List.Perm.swap (f entry) head _)

end Chain

section Keys

variable [DecidableEq K] (key : E → K)

theorem find_key_eq_some_iff {entries : List E} (distinct : (entries.map key).Nodup) {k : K}
    {entry : E} :
    entries.find? (fun entry => key entry = k) = some entry ↔ entry ∈ entries ∧ key entry = k := by
  constructor
  · intro found
    exact ⟨List.mem_of_find?_eq_some found, by simpa using List.find?_some found⟩
  · rintro ⟨there, matches'⟩
    cases found : entries.find? fun entry => key entry = k with
    | none =>
        have misses := List.find?_eq_none.mp found entry there
        simp [matches'] at misses
    | some other =>
        have other' : key other = k := by simpa using List.find?_some found
        have same := List.inj_on_of_nodup_map distinct (List.mem_of_find?_eq_some found) there
          (other'.trans matches'.symm)
        rw [same]

theorem find_key_perm {entries entries' : List E} (perm : entries.Perm entries')
    (distinct : (entries.map key).Nodup) (k : K) :
    entries.find? (fun entry => key entry = k) = entries'.find? fun entry => key entry = k := by
  have distinct' := (perm.map key).nodup_iff.mp distinct
  apply Option.ext
  intro entry
  rw [find_key_eq_some_iff key distinct, find_key_eq_some_iff key distinct', perm.mem_iff]

end Keys

/-- Each entry is in the chain its code selects. -/
def Placed (code : E → ℕ) (chains : List (List E)) : Prop :=
  ∀ position chain, chains[position]? = some chain →
    ∀ entry ∈ chain, code entry % chains.length = position

section Chains

variable (code : E → ℕ)

theorem placed_replicate (count : ℕ) : Placed code (List.replicate count []) := by
  intro position chain there entry member
  have empty := List.eq_of_mem_replicate (List.mem_of_getElem? there)
  rw [empty] at member
  cases member

/-- An operation on one chain has the rest of the entries as its frame. -/
theorem flatten_modify_perm {chains : List (List E)} {position : ℕ} {chain : List E}
    (there : chains[position]? = some chain) :
    ∃ rest, chains.flatten.Perm (chain ++ rest) ∧
      ∀ f : List E → List E, (chains.modify position f).flatten.Perm (f chain ++ rest) := by
  induction chains generalizing position with
  | nil => cases there
  | cons head tail ih =>
      cases position with
      | zero =>
          cases there
          exact ⟨tail.flatten, List.Perm.refl _, fun f => List.Perm.refl _⟩
      | succ position =>
          obtain ⟨rest, whole, modified⟩ := ih there
          refine ⟨head ++ rest, ?_, fun f => ?_⟩
          · exact (whole.append_left head).trans (List.perm_append_comm_assoc head chain rest)
          · exact ((modified f).append_left head).trans
              (List.perm_append_comm_assoc head (f chain) rest)

variable {code}

theorem Placed.mem_iff {chains : List (List E)} (placed : Placed code chains) {position : ℕ}
    {chain : List E} (there : chains[position]? = some chain) {entry : E}
    (selects : code entry % chains.length = position) :
    entry ∈ chain ↔ entry ∈ chains.flatten := by
  constructor
  · intro member
    exact List.mem_flatten.mpr ⟨chain, List.mem_of_getElem? there, member⟩
  · intro member
    obtain ⟨other, among, member⟩ := List.mem_flatten.mp member
    obtain ⟨index, bound, at'⟩ := List.mem_iff_getElem.mp among
    have there' : chains[index]? = some other := by rw [List.getElem?_eq_getElem bound, at']
    have index_eq : index = position := (placed index other there' entry member).symm.trans selects
    rw [index_eq, there] at there'
    cases there'
    exact member

theorem Placed.modify {chains : List (List E)} (placed : Placed code chains) {position : ℕ}
    {f : List E → List E}
    (belongs : ∀ chain, chains[position]? = some chain → ∀ entry ∈ f chain,
      code entry % chains.length = position) :
    Placed code (chains.modify position f) := by
  intro index chain there entry member
  rw [List.length_modify]
  rw [List.getElem?_modify] at there
  obtain ⟨before, was, rfl⟩ := Option.map_eq_some_iff.mp there
  by_cases same : position = index
  · rw [if_pos same] at member
    rw [← same]
    exact belongs before (same ▸ was) entry member
  · rw [if_neg same] at member
    exact placed index before was entry member

theorem Placed.map {chains : List (List E)} (placed : Placed code chains)
    {f : List E → List E}
    (codes : ∀ chain, ∀ entry ∈ f chain, ∃ before ∈ chain, code entry = code before) :
    Placed code (chains.map f) := by
  intro index chain there entry member
  rw [List.length_map]
  rw [List.getElem?_map] at there
  obtain ⟨before, was, rfl⟩ := Option.map_eq_some_iff.mp there
  obtain ⟨old, there, same⟩ := codes before entry member
  rw [same]
  exact placed index before was old there

theorem Placed.find_eq [DecidableEq K] {key : E → K} {codeOf : K → ℕ} {chains : List (List E)}
    (placed : Placed code chains)
    (coded : ∀ entry ∈ chains.flatten, code entry = codeOf (key entry))
    (distinct : (chains.flatten.map key).Nodup) {k : K} {chain : List E}
    (there : chains[codeOf k % chains.length]? = some chain) :
    chain.find? (fun entry => key entry = k) =
      chains.flatten.find? fun entry => key entry = k := by
  have among : ∀ {entry : E}, entry ∈ chain → entry ∈ chains.flatten := by
    intro entry member
    exact List.mem_flatten.mpr ⟨chain, List.mem_of_getElem? there, member⟩
  apply Option.ext
  intro entry
  rw [find_key_eq_some_iff key distinct]
  constructor
  · intro found
    exact ⟨among (List.mem_of_find?_eq_some found), by simpa using List.find?_some found⟩
  · rintro ⟨member, matches'⟩
    have selects : code entry % chains.length = codeOf k % chains.length := by
      rw [coded entry member, matches']
    have member' := (placed.mem_iff there selects).mpr member
    cases found : chain.find? fun entry => key entry = k with
    | none =>
        have misses := List.find?_eq_none.mp found entry member'
        simp [matches'] at misses
    | some other =>
        have other' : key other = k := by simpa using List.find?_some found
        have same := List.inj_on_of_nodup_map distinct (among (List.mem_of_find?_eq_some found))
          member (other'.trans matches'.symm)
        rw [same]

end Chains

section Rehash

variable (code : E → ℕ)

def pushFront (chains : List (List E)) (entry : E) : List (List E) :=
  chains.modify (code entry % chains.length) (entry :: ·)

/-- The entries of all chains, in order, each at the front of its new chain. -/
def rehash (chains : List (List E)) (count : ℕ) : List (List E) :=
  chains.foldl (fun moved chain => chain.foldl (pushFront code) moved) (List.replicate count [])

@[simp] theorem length_push_front (chains : List (List E)) (entry : E) :
    (pushFront code chains entry).length = chains.length := List.length_modify ..

variable {code}

theorem selected_chain {chains : List (List E)} (nonempty : 0 < chains.length) (index : ℕ) :
    ∃ chain, chains[index % chains.length]? = some chain :=
  ⟨_, List.getElem?_eq_getElem (Nat.mod_lt index nonempty)⟩

theorem push_front_perm {chains : List (List E)} (nonempty : 0 < chains.length) (entry : E) :
    (pushFront code chains entry).flatten.Perm (entry :: chains.flatten) := by
  obtain ⟨chain, there⟩ := selected_chain nonempty (code entry)
  obtain ⟨rest, whole, modified⟩ := flatten_modify_perm there
  exact (modified (entry :: ·)).trans (whole.symm.cons entry)

theorem Placed.push_front {chains : List (List E)} (placed : Placed code chains) (entry : E) :
    Placed code (pushFront code chains entry) := by
  apply placed.modify
  intro chain there other member
  rcases List.mem_cons.mp member with rfl | member
  · rfl
  · exact placed _ chain there other member

theorem rehash_eq_foldl (chains : List (List E)) (count : ℕ) :
    rehash code chains count = chains.flatten.foldl (pushFront code) (List.replicate count []) := by
  rw [rehash, List.foldl_flatten]

theorem foldl_push_front {chains : List (List E)} (nonempty : 0 < chains.length)
    (placed : Placed code chains) (entries : List E) :
    (entries.foldl (pushFront code) chains).length = chains.length ∧
      Placed code (entries.foldl (pushFront code) chains) ∧
      (entries.foldl (pushFront code) chains).flatten.Perm (entries ++ chains.flatten) := by
  induction entries generalizing chains with
  | nil => exact ⟨rfl, placed, List.Perm.refl _⟩
  | cons entry entries ih =>
      have length := length_push_front code chains entry
      obtain ⟨length', placed', perm⟩ := ih (length.symm ▸ nonempty) (placed.push_front entry)
      refine ⟨length'.trans length, placed', perm.trans ?_⟩
      exact ((push_front_perm nonempty entry).append_left entries).trans
        List.perm_middle

theorem placed_rehash {chains : List (List E)} {count : ℕ} (nonempty : 0 < count) :
    Placed code (rehash code chains count) := by
  rw [rehash_eq_foldl]
  exact (foldl_push_front (by simpa using nonempty) (placed_replicate code count) _).2.1

variable (code)

theorem length_rehash (chains : List (List E)) {count : ℕ} (nonempty : 0 < count) :
    (rehash code chains count).length = count := by
  have moved := foldl_push_front (by simpa using nonempty) (placed_replicate code count)
    chains.flatten
  rw [rehash_eq_foldl, moved.1, List.length_replicate]

/-- Nothing is lost or doubled by a move to a new table. -/
theorem rehash_perm (chains : List (List E)) {count : ℕ} (nonempty : 0 < count) :
    (rehash code chains count).flatten.Perm chains.flatten := by
  have moved := foldl_push_front (by simpa using nonempty) (placed_replicate code count)
    chains.flatten
  rw [rehash_eq_foldl]
  simpa using moved.2.2

end Rehash

end FileTransfer.Containers
