import Mathlib.Data.Finset.Basic
import FileTransfer.Interaction.Routine

/-!
# Lifetimes of handles

A routine keeps the handles a library hands out in slots, its variables, one
handle at a time in each. What its calls do with a slot is replayed against
the set of slots that hold a live handle. Numbering the handles of each slot
in the order of their creation gives every one a history of its own, and the
replay comes out even exactly if each history is a whole lifetime.
-/

namespace FileTransfer.Interaction

set_option autoImplicit false

inductive HandleOp (S : Type) where
  | create (slot : S)
  | use (slot : S)
  | release (slot : S)
  deriving DecidableEq

namespace HandleOp

variable {S T : Type}

def slot : HandleOp S → S
  | .create slot | .use slot | .release slot => slot

def map (f : S → T) : HandleOp S → HandleOp T
  | .create slot => .create (f slot)
  | .use slot => .use (f slot)
  | .release slot => .release (f slot)

@[simp] theorem slot_map (f : S → T) (op : HandleOp S) : (op.map f).slot = f op.slot := by
  cases op <;> rfl

variable [DecidableEq S]

/-- The live slots after an operation; `none` if it is given no live handle, or
drops one by storing another over it. -/
def step (live : Finset S) : HandleOp S → Option (Finset S)
  | .create slot => if slot ∈ live then none else some (insert slot live)
  | .use slot => if slot ∈ live then some live else none
  | .release slot => if slot ∈ live then some (live.erase slot) else none

def count (made : S → Nat) : HandleOp S → S → Nat
  | .create slot => Function.update made slot (made slot + 1)
  | .use _ | .release _ => made

end HandleOp

variable {S : Type} [DecidableEq S]

def replay (live : Finset S) : List (HandleOp S) → Option (Finset S)
  | [] => some live
  | op :: later => (op.step live).bind fun live' => replay live' later

theorem replay_append (live : Finset S) (ops later : List (HandleOp S)) :
    replay live (ops ++ later) = (replay live ops).bind fun live' => replay live' later := by
  induction ops generalizing live with
  | nil => rfl
  | cons op ops ih =>
      simp only [List.cons_append, replay, Option.bind_assoc]
      congr 1
      funext live'
      exact ih live'

theorem replay_use_iff {live live' : Finset S} {slot : S} :
    replay live [.use slot] = some live' ↔ slot ∈ live ∧ live' = live := by
  simp [replay, HandleOp.step, eq_comm]

theorem replay_release_iff {live live' : Finset S} {slot : S} :
    replay live [.release slot] = some live' ↔ slot ∈ live ∧ live' = live.erase slot := by
  simp [replay, HandleOp.step, eq_comm]

/-- The operations on single handles: each is a slot with the number of the
handle in it, the first one created there being 1. -/
def number (made : S → Nat) : List (HandleOp S) → List (HandleOp (S × Nat))
  | [] => []
  | op :: later =>
      op.map (fun slot => (slot, op.count made slot)) :: number (op.count made) later

def history (handle : S × Nat) (ops : List (HandleOp (S × Nat))) :
    List (HandleOp (S × Nat)) :=
  ops.filter (·.slot = handle)

abbrev historyOf (handle : S × Nat) (ops : List (HandleOp S)) : List (HandleOp (S × Nat)) :=
  history handle (number (fun _ => 0) ops)

def Held (handle : S × Nat) (life : List (HandleOp (S × Nat))) : Prop :=
  ∃ uses, life = .create handle :: List.replicate uses (.use handle)

def Lived (handle : S × Nat) (life : List (HandleOp (S × Nat))) : Prop :=
  ∃ uses, life = .create handle :: (List.replicate uses (.use handle) ++ [.release handle])

/-- What may still happen to a handle while the live slots go from `live` to
`live'`, `made` handles having been created: all of its life if it is one of
those to come, the rest of it if it is in a live slot, and nothing otherwise. -/
def Remains (live live' : Finset S) (made : S → Nat) (handle : S × Nat)
    (life : List (HandleOp (S × Nat))) : Prop :=
  if made handle.1 < handle.2 then
    life = [] ∨ (Held handle life ∧ handle.1 ∈ live') ∨ Lived handle life
  else if handle.2 = made handle.1 ∧ handle.1 ∈ live then
    ∃ uses, (life = List.replicate uses (.use handle) ∧ handle.1 ∈ live') ∨
      life = List.replicate uses (.use handle) ++ [.release handle]
  else life = []

theorem history_old {made : S → Nat} {ops : List (HandleOp S)} {handle : S × Nat}
    (old : handle.2 < made handle.1) : history handle (number made ops) = [] := by
  induction ops generalizing made with
  | nil => rfl
  | cons op ops ih =>
      have older : handle.2 < op.count made handle.1 := by
        cases op with
        | create slot =>
            by_cases same : handle.1 = slot
            · subst same
              simp only [HandleOp.count, Function.update_self]
              omega
            · simpa [HandleOp.count, Function.update_of_ne same] using old
        | use slot => exact old
        | release slot => exact old
      have other : (op.map fun slot => (slot, op.count made slot)).slot ≠ handle := by
        intro same
        rw [HandleOp.slot_map] at same
        subst same
        exact absurd older (Nat.lt_irrefl _)
      rw [number, history, List.filter_cons_of_neg (by simpa using other)]
      exact ih older

theorem made_lt_of_create {made : S → Nat} {ops : List (HandleOp S)} {handle : S × Nat}
    (creates : .create handle ∈ number made ops) : made handle.1 < handle.2 := by
  induction ops generalizing made with
  | nil => cases creates
  | cons op ops ih =>
      rcases List.mem_cons.mp creates with first | later
      · cases op with
        | create slot =>
            cases first
            simp [HandleOp.count]
        | use slot => cases first
        | release slot => cases first
      · apply lt_of_le_of_lt _ (ih later)
        cases op with
        | create slot =>
            by_cases same : handle.1 = slot
            · subst same
              simp [HandleOp.count]
            · simp [HandleOp.count, same]
        | use slot => exact le_rfl
        | release slot => exact le_rfl

section Remains

variable {live live' : Finset S} {made : S → Nat} {handle : S × Nat}
  {life : List (HandleOp (S × Nat))}

theorem remains_future (future : made handle.1 < handle.2) :
    Remains live live' made handle life ↔
      life = [] ∨ (Held handle life ∧ handle.1 ∈ live') ∨ Lived handle life := by
  rw [Remains, if_pos future]

theorem remains_current (current : handle.2 = made handle.1) (there : handle.1 ∈ live) :
    Remains live live' made handle life ↔
      ∃ uses, (life = List.replicate uses (.use handle) ∧ handle.1 ∈ live') ∨
        life = List.replicate uses (.use handle) ++ [.release handle] := by
  rw [Remains, if_neg (by omega), if_pos ⟨current, there⟩]

theorem remains_past (past : handle.2 ≤ made handle.1)
    (gone : ¬ (handle.2 = made handle.1 ∧ handle.1 ∈ live)) :
    Remains live live' made handle life ↔ life = [] := by
  rw [Remains, if_neg (by omega), if_neg gone]

theorem remains_create (there : handle.1 ∈ live) (next : handle.2 = made handle.1)
    {before : Finset S} {made' : S → Nat} (one : made' handle.1 + 1 = made handle.1) :
    Remains before live' made' handle (.create handle :: life) ↔
      Remains live live' made handle life := by
  rw [remains_future (by omega), remains_current next there]
  constructor
  · rintro (none | ⟨⟨uses, held⟩, still⟩ | ⟨uses, lived⟩)
    · cases none
    · exact ⟨uses, .inl ⟨(List.cons.inj held).2, still⟩⟩
    · exact ⟨uses, .inr (List.cons.inj lived).2⟩
  · rintro ⟨uses, ⟨rest, still⟩ | rest⟩
    · exact .inr (.inl ⟨⟨uses, by rw [rest]⟩, still⟩)
    · exact .inr (.inr ⟨uses, by rw [rest]⟩)

theorem remains_use (current : handle.2 = made handle.1) (there : handle.1 ∈ live) :
    Remains live live' made handle (.use handle :: life) ↔
      Remains live live' made handle life := by
  rw [remains_current current there, remains_current current there]
  constructor
  · rintro ⟨uses, split⟩
    cases uses with
    | zero => simp at split
    | succ uses =>
        refine ⟨uses, ?_⟩
        simpa [List.replicate_succ] using split
  · rintro ⟨uses, split⟩
    refine ⟨uses + 1, ?_⟩
    simpa [List.replicate_succ] using split

theorem remains_release (current : handle.2 = made handle.1) (there : handle.1 ∈ live) :
    Remains live live' made handle (.release handle :: life) ↔
      Remains (live.erase handle.1) live' made handle life := by
  have gone : ¬ (handle.2 = made handle.1 ∧ handle.1 ∈ live.erase handle.1) := by simp
  rw [remains_current current there, remains_past (by omega) gone]
  constructor
  · rintro ⟨uses, split⟩
    cases uses with
    | zero => simpa using split
    | succ uses => simp [List.replicate_succ] at split
  · intro finished
    exact ⟨0, .inr (by simp [finished])⟩

theorem remains_congr {after : Finset S} {made' : S → Nat}
    (counts : made' handle.1 = made handle.1)
    (slots : handle.2 = made handle.1 → (handle.1 ∈ after ↔ handle.1 ∈ live)) :
    Remains live live' made handle life ↔ Remains after live' made' handle life := by
  unfold Remains
  rw [counts]
  by_cases current : handle.2 = made handle.1
  · simp only [slots current]
  · simp only [current, false_and]

theorem history_number_self {op : HandleOp S} {later : List (HandleOp S)}
    (same : handle = (op.slot, op.count made op.slot)) :
    history handle (number made (op :: later)) =
      op.map (fun _ => handle) :: history handle (number (op.count made) later) := by
  subst same
  rw [number, history, List.filter_cons_of_pos (by simp)]
  cases op <;> rfl

theorem history_number_other {op : HandleOp S} {later : List (HandleOp S)}
    (other : handle ≠ (op.slot, op.count made op.slot)) :
    history handle (number made (op :: later)) =
      history handle (number (op.count made) later) := by
  rw [number, history, List.filter_cons_of_neg (by simpa [eq_comm] using other)]
  rfl

theorem remains_step {op : HandleOp S} {after : Finset S} (steps : op.step live = some after)
    (later : List (HandleOp S)) :
    Remains live live' made handle (history handle (number made (op :: later))) ↔
      Remains after live' (op.count made) handle
        (history handle (number (op.count made) later)) := by
  cases op with
  | create slot =>
      simp only [HandleOp.step, Option.ite_none_left_eq_some, Option.some.injEq] at steps
      obtain ⟨free, rfl⟩ := steps
      by_cases same : handle = (slot, made slot + 1)
      · rw [history_number_self (by simpa [HandleOp.slot, HandleOp.count] using same)]
        exact remains_create (by simp [same]) (by simp [same, HandleOp.count])
          (by simp [same, HandleOp.count])
      · rw [history_number_other (by simpa [HandleOp.slot, HandleOp.count] using same)]
        by_cases slot' : handle.1 = slot
        · subst slot'
          have number' : handle.2 ≠ made handle.1 + 1 := fun equal => same (Prod.ext rfl equal)
          have counts : (HandleOp.create handle.1).count made handle.1 = made handle.1 + 1 := by
            simp [HandleOp.count]
          rcases Nat.lt_or_ge (made handle.1) handle.2 with future | past
          · rw [remains_future future, remains_future (by omega)]
          · rw [remains_past past fun current => free current.2,
              remains_past (by omega) fun current => by omega]
        · exact remains_congr (by simp [HandleOp.count, slot']) fun _ => by simp [slot']
  | use slot =>
      simp only [HandleOp.step, Option.ite_none_right_eq_some, Option.some.injEq] at steps
      obtain ⟨there, rfl⟩ := steps
      by_cases same : handle = (slot, made slot)
      · rw [history_number_self (by simpa [HandleOp.slot, HandleOp.count] using same)]
        exact remains_use (by simp [same]) (by simpa [same] using there)
      · rw [history_number_other (by simpa [HandleOp.slot, HandleOp.count] using same)]
        exact Iff.rfl
  | release slot =>
      simp only [HandleOp.step, Option.ite_none_right_eq_some, Option.some.injEq] at steps
      obtain ⟨there, rfl⟩ := steps
      by_cases same : handle = (slot, made slot)
      · rw [history_number_self (by simpa [HandleOp.slot, HandleOp.count] using same)]
        subst same
        exact remains_release rfl there
      · rw [history_number_other (by simpa [HandleOp.slot, HandleOp.count] using same)]
        refine remains_congr rfl fun current => ?_
        have slot' : handle.1 ≠ slot := by
          intro equal
          subst equal
          exact same (Prod.ext rfl current)
        simp [slot']

theorem not_remains {op : HandleOp S} (stuck : op.step live = none)
    (later : List (HandleOp S)) :
    ¬ ∀ handle, Remains live ∅ made handle (history handle (number made (op :: later))) := by
  intro remains
  cases op with
  | create slot =>
      -- the handle in the slot is lost: what remains of it can no longer happen
      simp only [HandleOp.step, ite_eq_left_iff, reduceCtorEq, imp_false, not_not] at stuck
      have lost := (remains_current rfl stuck).mp (remains (slot, made slot))
      rw [history_number_other (by simp [HandleOp.slot, HandleOp.count]),
        history_old (by simp [HandleOp.count])] at lost
      simp at lost
  | use slot =>
      simp only [HandleOp.step, ite_eq_right_iff, reduceCtorEq, imp_false] at stuck
      have nothing := (remains_past le_rfl fun current => stuck current.2).mp
        (remains (slot, made slot))
      rw [history_number_self (by rfl)] at nothing
      cases nothing
  | release slot =>
      simp only [HandleOp.step, ite_eq_right_iff, reduceCtorEq, imp_false] at stuck
      have nothing := (remains_past le_rfl fun current => stuck current.2).mp
        (remains (slot, made slot))
      rw [history_number_self (by rfl)] at nothing
      cases nothing

theorem remains_of_replay {ops : List (HandleOp S)} (replays : replay live ops = some live') :
    Remains live live' made handle (history handle (number made ops)) := by
  induction ops generalizing live made with
  | nil =>
      simp only [replay, Option.some.injEq] at replays
      subst replays
      unfold Remains
      split
      · exact .inl rfl
      · split
        · rename_i current
          exact ⟨0, .inl ⟨rfl, current.2⟩⟩
        · rfl
  | cons op ops ih =>
      obtain ⟨after, steps, rest⟩ := Option.bind_eq_some_iff.mp replays
      exact (remains_step steps ops).mpr (ih rest)

theorem replay_of_remains {ops : List (HandleOp S)}
    (remains : ∀ handle, Remains live ∅ made handle (history handle (number made ops))) :
    replay live ops = some ∅ := by
  induction ops generalizing live made with
  | nil =>
      rw [replay, Option.some.injEq, Finset.eq_empty_iff_forall_notMem]
      intro slot there
      have held := (remains_current rfl there).mp (remains (slot, made slot))
      simp [number, history] at held
  | cons op ops ih =>
      cases steps : op.step live with
      | none => exact absurd remains (not_remains steps ops)
      | some after =>
          rw [replay, steps, Option.bind_some]
          exact ih fun handle => (remains_step steps ops).mp (remains handle)

end Remains

/-- As long as the operations can be replayed, a handle is not there yet, held
by its slot, or released, and has been used in between only. -/
theorem life_of_replay {ops : List (HandleOp S)} {live : Finset S}
    (replays : replay ∅ ops = some live) (handle : S × Nat) :
    historyOf handle ops = [] ∨ (Held handle (historyOf handle ops) ∧ handle.1 ∈ live) ∨
      Lived handle (historyOf handle ops) := by
  have remains : Remains ∅ live (fun _ => 0) handle (historyOf handle ops) :=
    remains_of_replay replays
  rcases Nat.eq_zero_or_pos handle.2 with none | some
  · exact .inl ((remains_past (by omega) (by simp)).mp remains)
  · exact (remains_future some).mp remains

/-- The operations come out even exactly if every handle has been created,
used and released in this order, once. -/
theorem replay_eq_empty_iff (ops : List (HandleOp S)) :
    replay ∅ ops = some ∅ ↔
      ∀ handle, historyOf handle ops = [] ∨ Lived handle (historyOf handle ops) := by
  constructor
  · intro replays handle
    rcases life_of_replay replays handle with none | ⟨_, there⟩ | lived
    · exact .inl none
    · exact absurd there (Finset.notMem_empty _)
    · exact .inr lived
  · intro lived
    have remains : ∀ handle, Remains ∅ ∅ (fun _ => 0) handle (historyOf handle ops) := by
      intro handle
      rcases Nat.eq_zero_or_pos handle.2 with none | some
      · rw [remains_past (by omega) (by simp)]
        rcases lived handle with never | ⟨uses, lived⟩
        · exact never
        · have creates : .create handle ∈ historyOf handle ops := by
            rw [lived]
            exact List.mem_cons_self
          have made := made_lt_of_create (List.mem_of_mem_filter creates)
          omega
      · rw [remains_future some]
        exact (lived handle).imp_right .inr
    exact replay_of_remains remains

section Points

variable {C : Type} {A : C → Type} {R : Type}

def handleOps (ops : (call : C) → A call → List (HandleOp S)) (trace : List (Exchange A)) :
    List (HandleOp S) :=
  trace.flatMap fun exchange => ops exchange.1 exchange.2

variable (P : Routine A R) (ops : (call : C) → A call → List (HandleOp S))

/-- `Reaches pc trace pc'`: resumed at `pc`, the routine makes the exchanges of
`trace` and stands at `pc'`. -/
inductive Routine.Reaches : P.Pc → List (Exchange A) → P.Pc → Prop where
  | here {pc : P.Pc} : Reaches pc [] pc
  | goto {pc pc' pc'' : P.Pc} {answer : A (P.call pc)} {trace : List (Exchange A)}
      (moves : P.next pc answer = .goto pc') (rest : Reaches pc' trace pc'') :
      Reaches pc (⟨P.call pc, answer⟩ :: trace) pc''

def Next.live {Pc : Type} (next : Next Pc R) (live : Pc → Finset S) (left : R → Finset S) :
    Finset S :=
  match next with
  | .goto pc => live pc
  | .done result => left result

/-- Each point is annotated with the live slots, and every call bears the
annotation out. -/
def Annotates (live : P.Pc → Finset S) (left : R → Finset S) : Prop :=
  ∀ (pc : P.Pc) (answer : A (P.call pc)),
    replay (live pc) (ops (P.call pc) answer) = some ((P.next pc answer).live live left)

variable {P ops} {live : P.Pc → Finset S} {left : R → Finset S} {pc pc' : P.Pc}
  {trace : List (Exchange A)}

omit [DecidableEq S] in
theorem handle_ops_cons (exchange : Exchange A) (trace : List (Exchange A)) :
    handleOps ops (exchange :: trace) = ops exchange.1 exchange.2 ++ handleOps ops trace := rfl

theorem Annotates.reaches (annotates : Annotates P ops live left)
    (reaches : P.Reaches pc trace pc') :
    replay (live pc) (handleOps ops trace) = some (live pc') := by
  induction reaches with
  | here => rfl
  | @goto pc pc' pc'' answer trace moves rest ih =>
      rw [handle_ops_cons, replay_append, annotates pc answer, moves]
      exact ih

theorem Annotates.returns (annotates : Annotates P ops live left) {result : R}
    (returns : P.Returns pc trace result) :
    replay (live pc) (handleOps ops trace) = some (left result) := by
  induction returns with
  | @done pc answer result ends =>
      rw [handle_ops_cons, replay_append, annotates pc answer, ends]
      rfl
  | @goto pc pc' answer trace result moves rest ih =>
      rw [handle_ops_cons, replay_append, annotates pc answer, moves]
      exact ih

variable (P ops)

/-- As long as every exchange is `served` the routine keeps to points and live
slots that are `fine`, and returns with none. One that is not served leaves it
with live slots it never gets rid of: those are `lost` from there on. -/
structure Loses (served : (call : C) → A call → Prop)
    (fine lost : P.Pc → Finset S → Prop) : Prop where
  bears : ∀ (pc : P.Pc) (answer : A (P.call pc)) (held : Finset S), fine pc held →
    served (P.call pc) answer → ∃ live', replay held (ops (P.call pc) answer) = some live' ∧
      (P.next pc answer).Meets (fun pc' => fine pc' live') fun _ => live' = ∅
  fails : ∀ (pc : P.Pc) (answer : A (P.call pc)) (held : Finset S), fine pc held →
    ¬ served (P.call pc) answer → ∀ live', replay held (ops (P.call pc) answer) = some live' →
      (P.next pc answer).Meets (fun pc' => lost pc' live') fun _ => live' ≠ ∅
  stays : ∀ (pc : P.Pc) (answer : A (P.call pc)) (held : Finset S), lost pc held →
    ∀ live', replay held (ops (P.call pc) answer) = some live' →
      (P.next pc answer).Meets (fun pc' => lost pc' live') fun _ => live' ≠ ∅

variable {P ops} {served : (call : C) → A call → Prop} {fine lost : P.Pc → Finset S → Prop}
  {held : Finset S}

theorem Loses.uneven (loses : Loses P ops served fine lost) (isLost : lost pc held) {result : R}
    (returns : P.Returns pc trace result) : replay held (handleOps ops trace) ≠ some ∅ := by
  intro even
  induction returns generalizing held with
  | @done pc answer result ends =>
      rw [handle_ops_cons, replay_append] at even
      obtain ⟨live', replays, rest⟩ := Option.bind_eq_some_iff.mp even
      have meets := loses.stays pc answer held isLost live' replays
      rw [ends] at meets
      exact meets (Option.some.inj rest)
  | @goto pc pc' answer trace result moves rest ih =>
      rw [handle_ops_cons, replay_append] at even
      obtain ⟨live', replays, later⟩ := Option.bind_eq_some_iff.mp even
      exact ih ((loses.stays pc answer held isLost live' replays).goes moves) later

/-- Such a routine comes out even exactly if all its calls have been served. -/
theorem Loses.even_iff (loses : Loses P ops served fine lost) (isFine : fine pc held)
    {result : R} (returns : P.Returns pc trace result) :
    replay held (handleOps ops trace) = some ∅ ↔
      ∀ exchange ∈ trace, served exchange.1 exchange.2 := by
  induction returns generalizing held with
  | @done pc answer result ends =>
      rw [handle_ops_cons, replay_append, List.forall_mem_singleton]
      by_cases good : served (P.call pc) answer
      · obtain ⟨live', replays, meets⟩ := loses.bears pc answer held isFine good
        rw [ends, Next.meets_done] at meets
        rw [replays, meets]
        exact iff_of_true rfl good
      · refine iff_of_false (fun even => ?_) good
        obtain ⟨live', replays, rest⟩ := Option.bind_eq_some_iff.mp even
        have meets := loses.fails pc answer held isFine good live' replays
        rw [ends] at meets
        exact meets (Option.some.inj rest)
  | @goto pc pc' answer trace result moves rest ih =>
      rw [handle_ops_cons, replay_append, List.forall_mem_cons]
      by_cases good : served (P.call pc) answer
      · obtain ⟨live', replays, meets⟩ := loses.bears pc answer held isFine good
        rw [replays, Option.bind_some, ih (meets.goes moves)]
        exact (and_iff_right good).symm
      · refine iff_of_false (fun even => ?_) fun all => good all.1
        obtain ⟨live', replays, later⟩ := Option.bind_eq_some_iff.mp even
        exact loses.uneven ((loses.fails pc answer held isFine good live' replays).goes moves)
          rest later

end Points

end FileTransfer.Interaction
