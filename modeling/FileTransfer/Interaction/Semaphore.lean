import FileTransfer.Interaction.Parallel

/-!
# Semaphores shared by two routines

Which calls wait on and post a semaphore is given by `op`; what the value is
and how the two calls change it is a property of the environment. A routine is
disciplined when its points can be marked as holding or not holding so that it
never waits while holding, never posts without holding and never returns while
holding. The marks are a proof device: the results speak about the value and
about the calls that have been made.
-/

namespace FileTransfer.Interaction

set_option autoImplicit false

inductive LockOp where
  | wait
  | post
  deriving DecidableEq

def LockOp.after (held : Bool) : Option LockOp → Bool
  | none => held
  | some .wait => true
  | some .post => false

variable {C : Type} {A : C → Type}

/-- `value` counts the posts not yet taken; a wait is answered only by taking
one. -/
structure Semaphore (env : Env A) (op : C → Option LockOp) where
  value : env.World → Nat
  wait : ∀ {world world' : env.World} {call : C} {answer : A call},
    env.respond world call answer = some world' → op call = some .wait →
      value world = value world' + 1
  post : ∀ {world world' : env.World} {call : C} {answer : A call},
    env.respond world call answer = some world' → op call = some .post →
      value world' = value world + 1
  other : ∀ {world world' : env.World} {call : C} {answer : A call},
    env.respond world call answer = some world' → op call = none →
      value world' = value world
  move : ∀ {world world' : env.World} {move : env.Move},
    env.move world move = some world' → value world' = value world

structure Discipline {R : Type} (op : C → Option LockOp) (routine : Routine A R)
    (holds : routine.Pc → Bool) : Prop where
  start : holds routine.start = false
  wait : ∀ {pc : routine.Pc}, op (routine.call pc) = some .wait → holds pc = false
  post : ∀ {pc : routine.Pc}, op (routine.call pc) = some .post → holds pc = true
  next : ∀ (pc : routine.Pc) (answer : A (routine.call pc)),
    (routine.next pc answer).Meets
      (fun pc' => holds pc' = LockOp.after (holds pc) (op (routine.call pc)))
      (fun _ => LockOp.after (holds pc) (op (routine.call pc)) = false)

def held {Pc : Type} (holds : Pc → Bool) (pc : Option Pc) : Nat :=
  (pc.elim false holds).toNat

@[simp] theorem held_none {Pc : Type} (holds : Pc → Bool) : held holds none = 0 := rfl

@[simp] theorem held_some {Pc : Type} (holds : Pc → Bool) (pc : Pc) :
    held holds (some pc) = (holds pc).toNat := rfl

theorem Discipline.held_resume {R : Type} {op : C → Option LockOp} {routine : Routine A R}
    {holds : routine.Pc → Bool} (discipline : Discipline op routine holds)
    (pc : routine.Pc) (answer : A (routine.call pc)) :
    held holds (routine.next pc answer).resume =
      (LockOp.after (holds pc) (op (routine.call pc))).toNat := by
  have follows := discipline.next pc answer
  cases next : routine.next pc answer with
  | goto pc' =>
      rw [next, Next.meets_goto] at follows
      simp [follows]
  | done result =>
      rw [next, Next.meets_done] at follows
      simp [follows]

variable {P Q : Routine A Unit} {env : Env A}

def leftOps (op : C → Option LockOp) (trace : List (Event P Q env)) : List LockOp :=
  trace.filterMap fun event => match event with
    | .left pc _ => op (P.call pc)
    | _ => none

def rightOps (op : C → Option LockOp) (trace : List (Event P Q env)) : List LockOp :=
  trace.filterMap fun event => match event with
    | .right pc _ => op (Q.call pc)
    | _ => none

/-- How many waits of a thread have not been matched by a post. -/
def outstanding (ops : List LockOp) : Nat := ops.count .wait - ops.count .post

/-- What a run of two disciplined threads keeps: the value and the two marks
add up to the initial value, and each mark counts the thread's unmatched waits. -/
structure Balanced {op : C → Option LockOp} (semaphore : Semaphore env op)
    (holdsLeft : P.Pc → Bool) (holdsRight : Q.Pc → Bool) (initial : Nat)
    (trace : List (Event P Q env)) (state : State P Q env) : Prop where
  total : semaphore.value state.world + held holdsLeft state.left +
    held holdsRight state.right = initial
  left : (leftOps op trace).count .wait =
    (leftOps op trace).count .post + held holdsLeft state.left
  right : (rightOps op trace).count .wait =
    (rightOps op trace).count .post + held holdsRight state.right

section Balance

variable {op : C → Option LockOp} {semaphore : Semaphore env op}
  {holdsLeft : P.Pc → Bool} {holdsRight : Q.Pc → Bool}
  (left : Discipline op P holdsLeft) (right : Discipline op Q holdsRight)

include left in
private theorem balanced_left_step {initial : Nat} {trace : List (Event P Q env)} {pc : P.Pc}
    {answer : A (P.call pc)} {rightPc : Option Q.Pc} {world world' : env.World}
    (before : Balanced semaphore holdsLeft holdsRight initial trace
      ⟨some pc, rightPc, world⟩)
    (responds : env.respond world (P.call pc) answer = some world') :
    Balanced semaphore holdsLeft holdsRight initial (.left pc answer :: trace)
      ⟨(P.next pc answer).resume, rightPc, world'⟩ := by
  obtain ⟨total, leftCount, rightCount⟩ := before
  have resumed := left.held_resume pc answer
  simp only [held_some] at total leftCount
  refine ⟨?_, ?_, by simpa [rightOps] using rightCount⟩
  all_goals
    cases selected : op (P.call pc) with
    | none =>
        have value := semaphore.other responds selected
        simp only [leftOps, List.filterMap_cons, selected, resumed, LockOp.after] at *
        omega
    | some lockOp =>
        cases lockOp with
        | wait =>
            have value := semaphore.wait responds selected
            have free := left.wait selected
            simp [leftOps, selected, resumed, LockOp.after, free] at *
            omega
        | post =>
            have value := semaphore.post responds selected
            have taken := left.post selected
            simp [leftOps, selected, resumed, LockOp.after, taken] at *
            omega

include right in
private theorem balanced_right_step {initial : Nat} {trace : List (Event P Q env)} {pc : Q.Pc}
    {answer : A (Q.call pc)} {leftPc : Option P.Pc} {world world' : env.World}
    (before : Balanced semaphore holdsLeft holdsRight initial trace
      ⟨leftPc, some pc, world⟩)
    (responds : env.respond world (Q.call pc) answer = some world') :
    Balanced semaphore holdsLeft holdsRight initial (.right pc answer :: trace)
      ⟨leftPc, (Q.next pc answer).resume, world'⟩ := by
  obtain ⟨total, leftCount, rightCount⟩ := before
  have resumed := right.held_resume pc answer
  simp only [held_some] at total rightCount
  refine ⟨?_, by simpa [leftOps] using leftCount, ?_⟩
  all_goals
    cases selected : op (Q.call pc) with
    | none =>
        have value := semaphore.other responds selected
        simp only [rightOps, List.filterMap_cons, selected, resumed, LockOp.after] at *
        omega
    | some lockOp =>
        cases lockOp with
        | wait =>
            have value := semaphore.wait responds selected
            have free := right.wait selected
            simp [rightOps, selected, resumed, LockOp.after, free] at *
            omega
        | post =>
            have value := semaphore.post responds selected
            have taken := right.post selected
            simp [rightOps, selected, resumed, LockOp.after, taken] at *
            omega

include left right in
/-- Two disciplined threads started before their first call keep the balance
in every state of every run. -/
theorem Run.balanced {ok : StepCondition P Q env} {init : State P Q env → Prop} {initial : Nat}
    (starts : ∀ state, init state → state.left = some P.start ∧ state.right = some Q.start ∧
      semaphore.value state.world = initial)
    {trace : List (Event P Q env)} {state : State P Q env}
    (run : Run P Q env ok init trace state) :
    Balanced semaphore holdsLeft holdsRight initial trace state := by
  refine run.invariant (Balanced semaphore holdsLeft holdsRight initial) ?_ ?_
  · intro state initially
    obtain ⟨atLeft, atRight, value⟩ := starts state initially
    refine ⟨?_, ?_, ?_⟩ <;>
      simp [atLeft, atRight, value, left.start, right.start, leftOps, rightOps]
  · intro trace state event state' _ before _ steps
    cases steps with
    | left responds => exact balanced_left_step left before responds
    | right responds => exact balanced_right_step right before responds
    | move moves =>
        obtain ⟨total, leftCount, rightCount⟩ := before
        refine ⟨?_, by simpa [leftOps] using leftCount, by simpa [rightOps] using rightCount⟩
        simpa [semaphore.move moves] using total

end Balance

end FileTransfer.Interaction
