import Mathlib.Data.List.Basic

/-!
# Reading through a list with a cursor

A cursor fails once it is asked for more than is left, and stays so until it is
set to a place. A reader that does not look at the failure is described by what
it reads: standing before its input it gives the value and stands behind it.
-/

namespace FileTransfer.Binary

set_option autoImplicit false

structure Cursor (α : Type) where
  data : List α
  offset : ℕ
  ok : Bool
  deriving DecidableEq

namespace Cursor

variable {α β γ : Type}

def start (data : List α) : Cursor α := ⟨data, 0, true⟩

def left (cursor : Cursor α) : ℕ :=
  if cursor.ok then cursor.data.length - cursor.offset else 0

def eof (cursor : Cursor α) : Bool := cursor.ok && cursor.offset = cursor.data.length

def get (count : ℕ) (cursor : Cursor α) : Option (List α) × Cursor α :=
  if cursor.ok && cursor.offset + count ≤ cursor.data.length then
    (some ((cursor.data.drop cursor.offset).take count),
      { cursor with offset := cursor.offset + count })
  else (none, { cursor with ok := false })

def setOffset (offset : ℕ) (cursor : Cursor α) : Cursor α :=
  if offset ≤ cursor.data.length then { cursor with ok := true, offset := offset }
  else { cursor with ok := false }

/-- The cursor has not failed and stands before `rest`. -/
structure At (cursor : Cursor α) (rest : List α) : Prop where
  ok : cursor.ok = true
  within : cursor.offset ≤ cursor.data.length
  rest : cursor.data.drop cursor.offset = rest

variable {cursor : Cursor α} {input rest : List α}

theorem at_start (data : List α) : (start data).At data where
  ok := rfl
  within := Nat.zero_le _
  rest := List.drop_zero

theorem At.left_eq (at' : cursor.At rest) : cursor.left = rest.length := by
  rw [left, if_pos at'.ok, ← at'.rest, List.length_drop]

theorem At.offset_eq (at' : cursor.At rest) : cursor.offset + rest.length = cursor.data.length := by
  rw [← at'.rest, List.length_drop]
  have within := at'.within
  omega

theorem At.eof_eq (at' : cursor.At rest) : cursor.eof = rest.isEmpty := by
  have placed := at'.offset_eq
  rw [eof, at'.ok]
  cases rest with
  | nil => simpa using placed
  | cons item rest =>
      rw [List.length_cons] at placed
      simp only [Bool.true_and, List.isEmpty_cons, decide_eq_false_iff_not]
      omega

theorem At.get_eq (at' : cursor.At (input ++ rest)) :
    cursor.get input.length =
      (some input, { cursor with offset := cursor.offset + input.length }) := by
  have placed := at'.offset_eq
  rw [List.length_append] at placed
  have fits : cursor.offset + input.length ≤ cursor.data.length := by omega
  rw [get, at'.ok, Bool.true_and, if_pos (decide_eq_true fits), at'.rest, List.take_left']
  rfl

theorem At.get (at' : cursor.At (input ++ rest)) :
    (cursor.get input.length).1 = some input ∧ (cursor.get input.length).2.At rest := by
  have placed := at'.offset_eq
  rw [List.length_append] at placed
  rw [at'.get_eq]
  refine ⟨rfl, at'.ok, ?_, ?_⟩
  · change cursor.offset + input.length ≤ cursor.data.length
    omega
  · change cursor.data.drop (cursor.offset + input.length) = rest
    rw [← List.drop_drop, at'.rest, List.drop_left']
    rfl

theorem At.get_drop {count : ℕ} (at' : cursor.At rest) (enough : count ≤ rest.length) :
    (cursor.get count).1 = some (rest.take count) ∧
      (cursor.get count).2.At (rest.drop count) := by
  have length : (rest.take count).length = count := by rw [List.length_take]; omega
  rw [← List.take_append_drop count rest] at at'
  have got := at'.get
  rwa [length] at got

theorem get_short {count : ℕ} (short : cursor.left < count) :
    cursor.get count = (none, { cursor with ok := false }) := by
  unfold left at short
  unfold Cursor.get
  split
  · rename_i fits
    simp only [Bool.and_eq_true, decide_eq_true_eq] at fits
    rw [if_pos fits.1] at short
    omega
  · rfl

theorem At.set_offset {offset : ℕ} (within : offset ≤ cursor.data.length) :
    (cursor.setOffset offset).At (cursor.data.drop offset) := by
  rw [setOffset, if_pos within]
  exact ⟨rfl, within, rfl⟩

@[simp] theorem data_set_offset (offset : ℕ) : (cursor.setOffset offset).data = cursor.data := by
  unfold setOffset
  split <;> rfl

@[simp] theorem data_get (count : ℕ) : (cursor.get count).2.data = cursor.data := by
  unfold Cursor.get
  split <;> rfl

/-- Before `input` the reader gives `value`, and then stands behind it. -/
def Reads (reader : StateM (Cursor α) β) (input : List α) (value : β) : Prop :=
  ∀ (cursor : Cursor α) (rest : List α), cursor.At (input ++ rest) →
    (reader cursor).1 = value ∧ (reader cursor).2.At rest ∧ (reader cursor).2.data = cursor.data

theorem Reads.run {reader : StateM (Cursor α) β} {value : β} (reads : Reads reader input value)
    (at' : cursor.At (input ++ rest)) :
    ∃ behind, reader.run cursor = (value, behind) ∧ behind.At rest := by
  obtain ⟨same, behind, _⟩ := reads cursor rest at'
  exact ⟨_, Prod.ext same rfl, behind⟩

theorem Reads.run_start {reader : StateM (Cursor α) β} {value : β}
    (reads : Reads reader input value) :
    ∃ behind, reader.run (start input) = (value, behind) ∧ behind.eof = true := by
  have at' : (start input).At (input ++ []) := by
    rw [List.append_nil]
    exact at_start input
  obtain ⟨behind, same, ended⟩ := reads.run at'
  exact ⟨behind, same, ended.eof_eq⟩

theorem reads_pure (value : β) : Reads (pure value : StateM (Cursor α) β) [] value :=
  fun _ _ at' => ⟨rfl, at', rfl⟩

theorem Reads.bind {reader : StateM (Cursor α) β} {next : β → StateM (Cursor α) γ}
    {first second : List α} {value : β} {result : γ} (reads : Reads reader first value)
    (continues : Reads (next value) second result) :
    Reads (reader >>= next) (first ++ second) result := by
  intro cursor rest at'
  rw [List.append_assoc] at at'
  obtain ⟨same, behind, data⟩ := reads cursor (second ++ rest) at'
  have step : (reader >>= next) cursor = next value (reader cursor).2 := by
    rw [← same]
    rfl
  rw [step]
  obtain ⟨same', behind', data'⟩ := continues (reader cursor).2 rest behind
  exact ⟨same', behind', data'.trans data⟩

/-- If there are `count` items left, the reader stands behind them afterwards. -/
def Moves (reader : StateM (Cursor α) β) (count : ℕ) : Prop :=
  ∀ (cursor : Cursor α) (rest : List α), cursor.At rest → count ≤ rest.length →
    (reader cursor).2.At (rest.drop count)

theorem moves_pure (value : β) : Moves (pure value : StateM (Cursor α) β) 0 :=
  fun _ _ at' _ => at'

theorem Moves.bind {reader : StateM (Cursor α) β} {next : β → StateM (Cursor α) γ}
    {first second : ℕ} (moves : Moves reader first)
    (continues : ∀ value, Moves (next value) second) :
    Moves (reader >>= next) (first + second) := by
  intro cursor rest at' enough
  have behind := moves cursor rest at' (by omega)
  have more := continues (reader cursor).1 (reader cursor).2 _ behind (by
    rw [List.length_drop]
    omega)
  rwa [List.drop_drop] at more

theorem Moves.of_eq {reader : StateM (Cursor α) β} {count count' : ℕ} (moves : Moves reader count)
    (same : count = count') : Moves reader count' := same ▸ moves

end Cursor

end FileTransfer.Binary
