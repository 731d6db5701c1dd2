import FileTransfer.Interaction.Parallel
import Mathlib.Order.WellFounded

/-!
# Reaching a goal by descent

The rule for "there is a continuation that gets there": as long as the goal is
not reached, some step that meets the condition keeps the invariant and makes
the rank smaller.
-/

namespace FileTransfer.Interaction

set_option autoImplicit false

variable {C : Type} {A : C → Type} {P Q : Routine A Unit} {env : Env A}
  {ok : StepCondition P Q env}

theorem exists_path_of_descent {Rank : Type} [Preorder Rank] [WellFoundedLT Rank]
    (inv goal : List (Event P Q env) → State P Q env → Prop) (rank : State P Q env → Rank)
    (descends : ∀ trace state, inv trace state → ∃ event state',
      ok trace state event ∧ Step P Q env state event state' ∧
        (goal (event :: trace) state' ∨
          (inv (event :: trace) state' ∧ rank state' < rank state)))
    {trace : List (Event P Q env)} {state : State P Q env} (holds : inv trace state) :
    ∃ trace' state', Path P Q env ok trace state trace' state' ∧ goal trace' state' := by
  generalize value : rank state = bound
  induction bound using WellFoundedLT.induction generalizing trace state with
  | ind bound ih =>
      obtain ⟨event, between, meets, steps, reached | ⟨kept, smaller⟩⟩ :=
        descends trace state holds
      · exact ⟨_, between, .cons meets steps .nil, reached⟩
      · obtain ⟨trace', state', path, reached⟩ := ih (rank between) (value ▸ smaller) kept rfl
        exact ⟨trace', state', .cons meets steps path, reached⟩

end FileTransfer.Interaction
