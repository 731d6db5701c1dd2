import FileTransfer.Interaction.Routine
import Mathlib.Logic.Relation

/-!
# Two routines over one environment

An environment answers calls from its own state and may also move by itself.
Two routines run over it with every interleaving of their calls. A run keeps
its events, newest first, so that what has happened can be read off it; an
event names the point at which the call was made and the answer it got.
-/

namespace FileTransfer.Interaction

set_option autoImplicit false

variable {C : Type} {A : C → Type}

/-- `respond world call answer` is the state after `call` was answered by
`answer`, and `none` where the environment cannot give that answer now (for a
blocking call: where it does not return yet). -/
structure Env (A : C → Type) where
  World : Type
  Move : Type
  respond : World → (call : C) → A call → Option World
  move : World → Move → Option World

structure Config (Left Right World : Type) where
  left : Option Left
  right : Option Right
  world : World
  deriving DecidableEq

section Parallel

variable (P Q : Routine A Unit) (env : Env A)

abbrev State := Config P.Pc Q.Pc env.World

inductive Event where
  | left (pc : P.Pc) (answer : A (P.call pc))
  | right (pc : Q.Pc) (answer : A (Q.call pc))
  | move (move : env.Move)

inductive Step : State P Q env → Event P Q env → State P Q env → Prop where
  | left {pc : P.Pc} {answer : A (P.call pc)} {right : Option Q.Pc}
      {world world' : env.World}
      (responds : env.respond world (P.call pc) answer = some world') :
      Step ⟨some pc, right, world⟩ (.left pc answer)
        ⟨(P.next pc answer).resume, right, world'⟩
  | right {pc : Q.Pc} {answer : A (Q.call pc)} {left : Option P.Pc}
      {world world' : env.World}
      (responds : env.respond world (Q.call pc) answer = some world') :
      Step ⟨left, some pc, world⟩ (.right pc answer)
        ⟨left, (Q.next pc answer).resume, world'⟩
  | move {move : env.Move} {left : Option P.Pc} {right : Option Q.Pc}
      {world world' : env.World} (moves : env.move world move = some world') :
      Step ⟨left, right, world⟩ (.move move) ⟨left, right, world'⟩

variable {P Q env} in
theorem Step.left_goto {pc pc' : P.Pc} {answer : A (P.call pc)} {right : Option Q.Pc}
    {world world' : env.World} (responds : env.respond world (P.call pc) answer = some world')
    (next : P.next pc answer = .goto pc') :
    Step P Q env ⟨some pc, right, world⟩ (.left pc answer) ⟨some pc', right, world'⟩ := by
  have steps : Step P Q env ⟨some pc, right, world⟩ (.left pc answer) _ := .left responds
  rw [next] at steps
  exact steps

variable {P Q env} in
theorem Step.right_goto {pc pc' : Q.Pc} {answer : A (Q.call pc)} {left : Option P.Pc}
    {world world' : env.World} (responds : env.respond world (Q.call pc) answer = some world')
    (next : Q.next pc answer = .goto pc') :
    Step P Q env ⟨left, some pc, world⟩ (.right pc answer) ⟨left, some pc', world'⟩ := by
  have steps : Step P Q env ⟨left, some pc, world⟩ (.right pc answer) _ := .right responds
  rw [next] at steps
  exact steps

/-- A condition on the steps of a run: what has happened, the state before
the step, and the event. -/
abbrev StepCondition := List (Event P Q env) → State P Q env → Event P Q env → Prop

def anyStep : StepCondition P Q env := fun _ _ _ => True

/-- `Run ok init trace state`: a run from a state of `init` all of whose steps
meet `ok` has made the events of `trace` and stands in `state`. -/
inductive Run (ok : StepCondition P Q env) (init : State P Q env → Prop) :
    List (Event P Q env) → State P Q env → Prop where
  | start {state : State P Q env} (starts : init state) : Run ok init [] state
  | step {trace : List (Event P Q env)} {state state' : State P Q env}
      {event : Event P Q env} (before : Run ok init trace state)
      (meets : ok trace state event) (steps : Step P Q env state event state') :
      Run ok init (event :: trace) state'

variable {P Q env} {ok : StepCondition P Q env} {init : State P Q env → Prop}

/-- The invariant rule: what holds at the start and survives every step that
meets the condition holds in every state of every such run. -/
theorem Run.invariant (Inv : List (Event P Q env) → State P Q env → Prop)
    (starts : ∀ state, init state → Inv [] state)
    (preserved : ∀ trace state event state', Run P Q env ok init trace state →
      Inv trace state → ok trace state event → Step P Q env state event state' →
        Inv (event :: trace) state')
    {trace : List (Event P Q env)} {state : State P Q env}
    (run : Run P Q env ok init trace state) : Inv trace state := by
  induction run with
  | start initial => exact starts _ initial
  | step before meets steps ih => exact preserved _ _ _ _ before ih meets steps

theorem Run.weaken {ok' : StepCondition P Q env}
    (weaker : ∀ trace state event, ok trace state event → ok' trace state event)
    {trace : List (Event P Q env)} {state : State P Q env}
    (run : Run P Q env ok init trace state) : Run P Q env ok' init trace state := by
  induction run with
  | start initial => exact .start initial
  | step before meets steps ih => exact .step ih (weaker _ _ _ meets) steps

theorem Run.any {trace : List (Event P Q env)} {state : State P Q env}
    (run : Run P Q env ok init trace state) :
    Run P Q env (anyStep P Q env) init trace state :=
  run.weaken fun _ _ _ _ => trivial

theorem Run.keepsLeft {inv : P.Pc → Prop} (keeps : P.Keeps inv)
    (starts : ∀ state, init state → state.left = some P.start)
    {trace : List (Event P Q env)} {state : State P Q env}
    (run : Run P Q env ok init trace state) : ∀ pc, state.left = some pc → inv pc := by
  induction run with
  | start initial =>
      intro pc stands
      rw [starts _ initial] at stands
      cases stands
      exact keeps.start
  | step before meets steps ih =>
      cases steps with
      | @left pc answer right world world' responds =>
          intro pc' stands
          exact (keeps.next pc answer (ih pc rfl)).resumes stands
      | right responds => exact ih
      | move moves => exact ih

variable (P Q env ok)

/-- A continuation: steps that meet the condition, from what has happened so
far to what has happened then. -/
inductive Path : List (Event P Q env) → State P Q env →
    List (Event P Q env) → State P Q env → Prop where
  | nil {trace : List (Event P Q env)} {state : State P Q env} :
      Path trace state trace state
  | cons {trace trace' : List (Event P Q env)} {state between state' : State P Q env}
      {event : Event P Q env} (meets : ok trace state event)
      (steps : Step P Q env state event between)
      (rest : Path (event :: trace) between trace' state') :
      Path trace state trace' state'

variable {P Q env ok}

theorem Path.trans {trace trace' trace'' : List (Event P Q env)}
    {state state' state'' : State P Q env}
    (first : Path P Q env ok trace state trace' state')
    (second : Path P Q env ok trace' state' trace'' state'') :
    Path P Q env ok trace state trace'' state'' := by
  induction first with
  | nil => exact second
  | cons meets steps rest ih => exact .cons meets steps (ih second)

theorem Run.extend {trace trace' : List (Event P Q env)} {state state' : State P Q env}
    (run : Run P Q env ok init trace state)
    (path : Path P Q env ok trace state trace' state') :
    Run P Q env ok init trace' state' := by
  induction path with
  | nil => exact run
  | cons meets steps rest ih => exact ih (.step run meets steps)

variable (P Q env ok)

def Reaches (trace : List (Event P Q env)) (state state' : State P Q env) : Prop :=
  ∃ trace', Path P Q env ok trace state trace' state'

variable {P Q env ok}

theorem Reaches.refl (trace : List (Event P Q env)) (state : State P Q env) :
    Reaches P Q env ok trace state state := ⟨trace, .nil⟩

theorem Reaches.left {trace : List (Event P Q env)} {pc : P.Pc} {right : Option Q.Pc}
    {world : env.World} {state' : State P Q env} (answer : A (P.call pc)) (world' : env.World)
    (responds : env.respond world (P.call pc) answer = some world')
    (meets : ok trace ⟨some pc, right, world⟩ (.left pc answer))
    (rest : Reaches P Q env ok (.left pc answer :: trace)
      ⟨(P.next pc answer).resume, right, world'⟩ state') :
    Reaches P Q env ok trace ⟨some pc, right, world⟩ state' := by
  obtain ⟨trace', path⟩ := rest
  exact ⟨trace', .cons meets (.left responds) path⟩

theorem Reaches.right {trace : List (Event P Q env)} {pc : Q.Pc} {left : Option P.Pc}
    {world : env.World} {state' : State P Q env} (answer : A (Q.call pc)) (world' : env.World)
    (responds : env.respond world (Q.call pc) answer = some world')
    (meets : ok trace ⟨left, some pc, world⟩ (.right pc answer))
    (rest : Reaches P Q env ok (.right pc answer :: trace)
      ⟨left, (Q.next pc answer).resume, world'⟩ state') :
    Reaches P Q env ok trace ⟨left, some pc, world⟩ state' := by
  obtain ⟨trace', path⟩ := rest
  exact ⟨trace', .cons meets (.right responds) path⟩

theorem Reaches.trans {trace : List (Event P Q env)} {state state' state'' : State P Q env}
    (first : Reaches P Q env ok trace state state')
    (second : ∀ trace', Reaches P Q env ok trace' state' state'') :
    Reaches P Q env ok trace state state'' := by
  obtain ⟨trace', path⟩ := first
  obtain ⟨trace'', rest⟩ := second trace'
  exact ⟨trace'', path.trans rest⟩

theorem Run.reach {trace : List (Event P Q env)} {state state' : State P Q env}
    (run : Run P Q env ok init trace state) (reaches : Reaches P Q env ok trace state state') :
    ∃ trace', Run P Q env ok init trace' state' := by
  obtain ⟨trace', path⟩ := reaches
  exact ⟨trace', run.extend path⟩

end Parallel

end FileTransfer.Interaction
