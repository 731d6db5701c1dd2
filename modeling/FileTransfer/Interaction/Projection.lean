import FileTransfer.Interaction.Parallel

/-!
# Forgetting part of an environment

A projection maps the states of one environment to those of another that
allows at least as much. Runs over the first are then runs over the second,
with the moves the second does not see left out, so that whatever holds of
every run over the second holds of them.
-/

namespace FileTransfer.Interaction

set_option autoImplicit false

variable {C : Type} {A : C → Type}

structure Projection (env env' : Env A) where
  world : env.World → env'.World
  visible : env.Move → Option env'.Move
  responds : ∀ {before after : env.World} {call : C} {answer : A call},
    env.respond before call answer = some after →
      env'.respond (world before) call answer = some (world after)
  moves : ∀ {before after : env.World} {move : env.Move} {move' : env'.Move},
    env.move before move = some after → visible move = some move' →
      env'.move (world before) move' = some (world after)
  stutters : ∀ {before after : env.World} {move : env.Move},
    env.move before move = some after → visible move = none → world after = world before

variable {P Q : Routine A Unit} {env env' : Env A}

namespace Projection

variable (projection : Projection env env')

def state (state : State P Q env) : State P Q env' :=
  ⟨state.left, state.right, projection.world state.world⟩

def event : Event P Q env → Option (Event P Q env')
  | .left pc answer => some (.left pc answer)
  | .right pc answer => some (.right pc answer)
  | .move move => (projection.visible move).map .move

def trace (trace : List (Event P Q env)) : List (Event P Q env') :=
  trace.filterMap projection.event

theorem step {before after : State P Q env} {event : Event P Q env}
    (steps : Step P Q env before event after) :
    match projection.event event with
    | some event' => Step P Q env' (projection.state before) event' (projection.state after)
    | none => projection.state after = projection.state before := by
  cases steps with
  | left responds => exact .left (projection.responds responds)
  | right responds => exact .right (projection.responds responds)
  | @move move left right world world' moves =>
      cases seen : projection.visible move with
      | none =>
          simp only [Projection.event, seen, Option.map_none, Projection.state]
          rw [projection.stutters moves seen]
      | some move' =>
          simp only [Projection.event, seen, Option.map_some]
          exact .move (projection.moves moves seen)

end Projection

theorem Run.project (projection : Projection env env')
    {ok : StepCondition P Q env} {ok' : StepCondition P Q env'}
    {init : State P Q env → Prop} {init' : State P Q env' → Prop}
    (starts : ∀ state, init state → init' (projection.state state))
    (condition : ∀ trace state event event', ok trace state event →
      projection.event event = some event' →
        ok' (projection.trace trace) (projection.state state) event')
    {trace : List (Event P Q env)} {state : State P Q env}
    (run : Run P Q env ok init trace state) :
    Run P Q env' ok' init' (projection.trace trace) (projection.state state) := by
  induction run with
  | start initial => exact .start (starts _ initial)
  | @step trace before after event run meets steps ih =>
      have projected := projection.step steps
      cases seen : projection.event event with
      | none =>
          rw [seen] at projected
          simp only [Projection.trace, List.filterMap_cons, seen]
          rw [projected]
          exact ih
      | some event' =>
          rw [seen] at projected
          simp only [Projection.trace, List.filterMap_cons, seen]
          exact .step ih (condition _ _ _ _ meets seen) projected

end FileTransfer.Interaction
