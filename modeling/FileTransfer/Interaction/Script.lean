import FileTransfer.Interaction.Parallel

/-!
# Runs read off a script

A run over a computable environment is given by who moves and how each call is
answered. Playing such a script checks every step, so that one evaluation
shows the run to exist.
-/

namespace FileTransfer.Interaction

set_option autoImplicit false

variable {C : Type} {A : C → Type}

/-- One line of a script. The answer may depend on the state and the call;
`none` stops the play. -/
inductive Cue (env : Env A) where
  | left (answer : env.World → (call : C) → Option (A call))
  | right (answer : env.World → (call : C) → Option (A call))
  | move (move : env.Move)

variable {P Q : Routine A Unit} {env : Env A}

def Cue.event (state : State P Q env) :
    Cue env → Option (Event P Q env × State P Q env)
  | .left answer =>
      match state.left with
      | none => none
      | some pc =>
          (answer state.world (P.call pc)).bind fun answer =>
            (env.respond state.world (P.call pc) answer).map fun world =>
              (.left pc answer, ⟨(P.next pc answer).resume, state.right, world⟩)
  | .right answer =>
      match state.right with
      | none => none
      | some pc =>
          (answer state.world (Q.call pc)).bind fun answer =>
            (env.respond state.world (Q.call pc) answer).map fun world =>
              (.right pc answer, ⟨state.left, (Q.next pc answer).resume, world⟩)
  | .move moved =>
      (env.move state.world moved).map fun world =>
        (.move moved, ⟨state.left, state.right, world⟩)

theorem Cue.event_step {cue : Cue env} {state state' : State P Q env} {event : Event P Q env}
    (plays : cue.event state = some (event, state')) : Step P Q env state event state' := by
  obtain ⟨left, right, world⟩ := state
  cases cue with
  | left answer =>
      cases left with
      | none => cases plays
      | some pc =>
          simp only [Cue.event, Option.bind_eq_some_iff, Option.map_eq_some_iff,
            Prod.mk.injEq] at plays
          obtain ⟨answer, _, world', responds, rfl, rfl⟩ := plays
          exact .left responds
  | right answer =>
      cases right with
      | none => cases plays
      | some pc =>
          simp only [Cue.event, Option.bind_eq_some_iff, Option.map_eq_some_iff,
            Prod.mk.injEq] at plays
          obtain ⟨answer, _, world', responds, rfl, rfl⟩ := plays
          exact .right responds
  | move move =>
      simp only [Cue.event, Option.map_eq_some_iff, Prod.mk.injEq] at plays
      obtain ⟨world', moves, rfl, rfl⟩ := plays
      exact .move moves

variable (meets : List (Event P Q env) → State P Q env → Event P Q env → Bool)

/-- The events and the state a script leads to, provided every step is possible
and passes `meets`. -/
def play : List (Cue env) → List (Event P Q env) → State P Q env →
    Option (List (Event P Q env) × State P Q env)
  | [], trace, state => some (trace, state)
  | cue :: cues, trace, state =>
      match cue.event state with
      | none => none
      | some (event, state') =>
          if meets trace state event then play cues (event :: trace) state' else none

variable {meets} {ok : StepCondition P Q env} {init : State P Q env → Prop}

theorem Run.play
    (sound : ∀ trace state event, meets trace state event = true → ok trace state event)
    {cues : List (Cue env)} {trace trace' : List (Event P Q env)} {state state' : State P Q env}
    (run : Run P Q env ok init trace state)
    (plays : play meets cues trace state = some (trace', state')) :
    Run P Q env ok init trace' state' := by
  induction cues generalizing trace state with
  | nil =>
      cases plays
      exact run
  | cons cue cues ih =>
      simp only [Interaction.play] at plays
      cases played : cue.event state with
      | none => simp [played] at plays
      | some next =>
          obtain ⟨event, between⟩ := next
          simp only [played] at plays
          split at plays
          · rename_i passes
            exact ih (.step run (sound _ _ _ passes) (Cue.event_step played)) plays
          · cases plays

variable (meets)

/-- A script that plays to an outcome of a kind shows that there is a run with
an outcome of that kind. -/
theorem exists_run_of_play (cues : List (Cue env)) (state : State P Q env)
    (outcome : List (Event P Q env) → State P Q env → Bool)
    (sound : ∀ trace state event, meets trace state event = true → ok trace state event)
    (starts : init state)
    (plays : (play meets cues [] state).any (fun ended => outcome ended.1 ended.2) = true) :
    ∃ trace state, Run P Q env ok init trace state ∧ outcome trace state = true := by
  cases played : play meets cues [] state with
  | none => simp [played] at plays
  | some ended =>
      obtain ⟨trace, last⟩ := ended
      rw [played, Option.any_some] at plays
      exact ⟨trace, last, Run.play sound (.start starts) played, plays⟩

end FileTransfer.Interaction
