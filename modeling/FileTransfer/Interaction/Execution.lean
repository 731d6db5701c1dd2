import FileTransfer.Interaction.Parallel

/-!
# One routine by itself

A function as it is called: its calls go to the environment one after the
other, with nothing in between. What has been called, newest first, is kept
with the point the routine stands at, so that a law can speak of every
intermediate state and not of the last one only. A walk leaves the environment
out: it is what a routine does between two of its points, whatever it is
answered and whatever runs beside it.
-/

namespace FileTransfer.Interaction

set_option autoImplicit false

variable {C : Type} {A : C → Type} {R : Type}

structure Turn (P : Routine A R) where
  pc : P.Pc
  answer : A (P.call pc)

def Turn.exchange {P : Routine A R} (turn : Turn P) : Exchange A := ⟨P.call turn.pc, turn.answer⟩

section Execution

variable (P : Routine A R) (env : Env A)

/-- Called in `world`, the routine has taken the turns of `trace` and stands at
a point. -/
inductive Stands (world : env.World) : List (Turn P) → P.Pc → env.World → Prop where
  | start : Stands world [] P.start world
  | turn {trace : List (Turn P)} {pc pc' : P.Pc} {answer : A (P.call pc)}
      {before after : env.World} (stands : Stands world trace pc before)
      (responds : env.respond before (P.call pc) answer = some after)
      (goes : P.next pc answer = .goto pc') : Stands world (⟨pc, answer⟩ :: trace) pc' after

inductive Returned (world : env.World) : List (Turn P) → R → env.World → Prop where
  | done {trace : List (Turn P)} {pc : P.Pc} {answer : A (P.call pc)} {result : R}
      {before after : env.World} (stands : Stands P env world trace pc before)
      (responds : env.respond before (P.call pc) answer = some after)
      (ends : P.next pc answer = .done result) : Returned world (⟨pc, answer⟩ :: trace) result after

/-- What every turn makes of an invariant: the invariant again where the routine
goes on, and the law where it returns. -/
def Contract (inv : List (Turn P) → P.Pc → env.World → Prop)
    (law : List (Turn P) → R → env.World → Prop) : Prop :=
  ∀ trace pc answer before after, inv trace pc before →
    env.respond before (P.call pc) answer = some after →
      (P.next pc answer).Meets (fun pc' => inv (⟨pc, answer⟩ :: trace) pc' after)
        fun result => law (⟨pc, answer⟩ :: trace) result after

variable {P env} {inv : List (Turn P) → P.Pc → env.World → Prop}
  {law : List (Turn P) → R → env.World → Prop} {world world' : env.World}
  {trace : List (Turn P)}

theorem Stands.returns {pc : P.Pc} {calls : List (Exchange A)} {result : R}
    (stands : Stands P env world trace pc world') (rest : P.Returns pc calls result) :
    P.Returns P.start ((trace.map Turn.exchange).reverse ++ calls) result := by
  induction stands generalizing calls with
  | start => exact rest
  | turn stands responds goes ih =>
      have whole := ih (.goto goes rest)
      simpa [Turn.exchange] using whole

theorem Returned.returns {result : R} (returned : Returned P env world trace result world') :
    P.Returns P.start (trace.map Turn.exchange).reverse result := by
  cases returned with
  | done stands responds ends =>
      have whole := stands.returns (.done ends)
      simpa [Turn.exchange] using whole

theorem Contract.stands (contract : Contract P env inv law) (starts : inv [] P.start world)
    {pc : P.Pc} (stands : Stands P env world trace pc world') : inv trace pc world' := by
  induction stands with
  | start => exact starts
  | turn stands responds goes ih => exact (contract _ _ _ _ _ ih responds).goes goes

theorem Contract.returned (contract : Contract P env inv law) (starts : inv [] P.start world)
    {result : R} (returned : Returned P env world trace result world') :
    law trace result world' := by
  cases returned with
  | done stands responds ends =>
      have meets := contract _ _ _ _ _ (contract.stands starts stands) responds
      rw [ends] at meets
      exact meets

variable (P env)

/-- Plays a list of answers, each of which may depend on the state and the call;
the last must be the one the routine returns on. -/
def perform : List (env.World → (call : C) → Option (A call)) → List (Turn P) → P.Pc →
    env.World → Option (List (Turn P) × R × env.World)
  | [], _, _, _ => none
  | cue :: cues, trace, pc, world =>
      (cue world (P.call pc)).bind fun answer =>
        (env.respond world (P.call pc) answer).bind fun after =>
          match P.next pc answer with
          | .goto pc' => perform cues (⟨pc, answer⟩ :: trace) pc' after
          | .done result =>
              if cues.isEmpty then some (⟨pc, answer⟩ :: trace, result, after) else none

variable {P env}

theorem Returned.of_perform {cues : List (env.World → (call : C) → Option (A call))}
    {trace trace' : List (Turn P)} {pc : P.Pc} {result : R} {between world' : env.World}
    (stands : Stands P env world trace pc between)
    (performs : perform P env cues trace pc between = some (trace', result, world')) :
    Returned P env world trace' result world' := by
  induction cues generalizing trace pc between with
  | nil => cases performs
  | cons cue cues ih =>
      simp only [perform, Option.bind_eq_some_iff] at performs
      obtain ⟨answer, _, after, responds, performs⟩ := performs
      cases next : P.next pc answer with
      | goto pc' =>
          rw [next] at performs
          exact ih (.turn stands responds next) performs
      | done returns =>
          rw [next] at performs
          simp only at performs
          split at performs
          · cases performs
            exact .done stands responds next
          · cases performs

theorem exists_returned_of_perform (cues : List (env.World → (call : C) → Option (A call)))
    (world : env.World) (outcome : List (Turn P) → R → env.World → Bool)
    (performs : (perform P env cues [] P.start world).any
      (fun ended => outcome ended.1 ended.2.1 ended.2.2) = true) :
    ∃ trace result world', Returned P env world trace result world' ∧
      outcome trace result world' = true := by
  cases performed : perform P env cues [] P.start world with
  | none => simp [performed] at performs
  | some ended =>
      obtain ⟨trace, result, world'⟩ := ended
      rw [performed, Option.any_some] at performs
      exact ⟨trace, result, world', .of_perform .start performed, performs⟩

variable (P env)

def advance : List (env.World → (call : C) → Option (A call)) → List (Turn P) → P.Pc →
    env.World → Option (List (Turn P) × P.Pc × env.World)
  | [], trace, pc, world => some (trace, pc, world)
  | cue :: cues, trace, pc, world =>
      (cue world (P.call pc)).bind fun answer =>
        (env.respond world (P.call pc) answer).bind fun after =>
          match P.next pc answer with
          | .goto pc' => advance cues (⟨pc, answer⟩ :: trace) pc' after
          | .done _ => none

variable {P env}

theorem Stands.of_advance {cues : List (env.World → (call : C) → Option (A call))}
    {trace trace' : List (Turn P)} {pc pc' : P.Pc} {between world' : env.World}
    (stands : Stands P env world trace pc between)
    (advances : advance P env cues trace pc between = some (trace', pc', world')) :
    Stands P env world trace' pc' world' := by
  induction cues generalizing trace pc between with
  | nil =>
      cases advances
      exact stands
  | cons cue cues ih =>
      simp only [advance, Option.bind_eq_some_iff] at advances
      obtain ⟨answer, _, after, responds, advances⟩ := advances
      cases next : P.next pc answer with
      | goto target =>
          rw [next] at advances
          exact ih (.turn stands responds next) advances
      | done returns =>
          rw [next] at advances
          cases advances

theorem exists_stands_of_advance (cues : List (env.World → (call : C) → Option (A call)))
    (world : env.World) (outcome : List (Turn P) → P.Pc → env.World → Bool)
    (advances : (advance P env cues [] P.start world).any
      (fun ended => outcome ended.1 ended.2.1 ended.2.2) = true) :
    ∃ trace pc world', Stands P env world trace pc world' ∧ outcome trace pc world' = true := by
  cases advanced : advance P env cues [] P.start world with
  | none => simp [advanced] at advances
  | some ended =>
      obtain ⟨trace, pc, world'⟩ := ended
      rw [advanced, Option.any_some] at advances
      exact ⟨trace, pc, world', .of_advance .start advanced, advances⟩

end Execution

section Walk

variable (P : Routine A R)

/-- From `start` the routine has taken the turns of `trace` and stands at a
point. -/
inductive Walk (start : P.Pc) : List (Turn P) → P.Pc → Prop where
  | start : Walk start [] start
  | turn {trace : List (Turn P)} {turn : Turn P} {pc : P.Pc} (walk : Walk start trace turn.pc)
      (goes : P.next turn.pc turn.answer = .goto pc) : Walk start (turn :: trace) pc

variable {P}

theorem Walk.invariant {start pc : P.Pc} {trace : List (Turn P)} {ok : Turn P → Prop}
    (inv : List (Turn P) → P.Pc → Prop) (starts : inv [] start)
    (preserved : ∀ trace turn, inv trace turn.pc → ok turn →
      (P.next turn.pc turn.answer).Meets (inv (turn :: trace)) fun _ => True)
    (walk : Walk P start trace pc) (met : ∀ turn ∈ trace, ok turn) : inv trace pc := by
  induction walk with
  | start => exact starts
  | @turn trace turn pc walk goes ih =>
      obtain ⟨meets, earlier⟩ := List.forall_mem_cons.mp met
      exact (preserved trace turn (ih earlier) meets).goes goes

variable {P Q : Routine A Unit} {env : Env A}

def leftTurns (trace : List (Event P Q env)) : List (Turn P) :=
  trace.filterMap fun event => match event with
    | .left pc answer => some ⟨pc, answer⟩
    | _ => none

theorem Run.walk {ok : StepCondition P Q env} {init : State P Q env → Prop} {start : P.Pc}
    (starts : ∀ state, init state → state.left = some start)
    {trace : List (Event P Q env)} {state : State P Q env}
    (run : Run P Q env ok init trace state) :
    ∀ pc, state.left = some pc → Walk P start (leftTurns trace) pc := by
  refine run.invariant
    (fun trace state => ∀ pc, state.left = some pc → Walk P start (leftTurns trace) pc) ?_ ?_
  · intro state initially pc stands
    rw [starts state initially] at stands
    cases stands
    exact .start
  · intro trace state event state' _ before _ steps
    cases steps with
    | @left pc answer right world world' responds =>
        intro pc' stands
        have next : P.next pc answer = .goto pc' := by
          change (P.next pc answer).resume = some pc' at stands
          cases goes : P.next pc answer with
          | goto target =>
              rw [goes] at stands
              cases stands
              rfl
          | done result =>
              rw [goes] at stands
              cases stands
        have walk : Walk P start (leftTurns trace) (⟨pc, answer⟩ : Turn P).pc := before pc rfl
        exact .turn walk next
    | right responds => exact before
    | move moves => exact before

end Walk

end FileTransfer.Interaction
