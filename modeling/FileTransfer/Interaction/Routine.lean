import Mathlib.Data.List.Basic

/-!
# Routines that talk to their environment

A routine is a program given by its points. At each point it makes one call;
the answer decides, without any further input, where it goes next or what it
returns. Nothing here fixes what a call does: that is the environment's part.
-/

namespace FileTransfer.Interaction

set_option autoImplicit false

inductive Next (Pc R : Type) where
  | goto (pc : Pc)
  | done (result : R)
  deriving DecidableEq

def Next.resume {Pc R : Type} : Next Pc R → Option Pc
  | .goto pc => some pc
  | .done _ => none

@[simp] theorem Next.resume_goto {Pc R : Type} (pc : Pc) :
    (Next.goto pc : Next Pc R).resume = some pc := rfl

@[simp] theorem Next.resume_done {Pc R : Type} (result : R) :
    (Next.done result : Next Pc R).resume = none := rfl

/-- `next.Meets going returned`: the point it goes to satisfies `going`, or the
result it returns satisfies `returned`. -/
def Next.Meets {Pc R : Type} (next : Next Pc R) (going : Pc → Prop) (returned : R → Prop) :
    Prop :=
  match next with
  | .goto pc => going pc
  | .done result => returned result

@[simp] theorem Next.meets_goto {Pc R : Type} (pc : Pc) (going : Pc → Prop)
    (returned : R → Prop) : (Next.goto pc).Meets going returned ↔ going pc := Iff.rfl

@[simp] theorem Next.meets_done {Pc R : Type} (result : R) (going : Pc → Prop)
    (returned : R → Prop) : (Next.done result).Meets going returned ↔ returned result := Iff.rfl

theorem Next.Meets.imp {Pc R : Type} {next : Next Pc R} {going going' : Pc → Prop}
    {returned returned' : R → Prop} (meets : next.Meets going returned)
    (goes : ∀ pc, going pc → going' pc) (returns : ∀ result, returned result → returned' result) :
    next.Meets going' returned' := by
  cases next with
  | goto pc => exact goes pc meets
  | done result => exact returns result meets

theorem Next.Meets.goes {Pc R : Type} {next : Next Pc R} {going : Pc → Prop}
    {returned : R → Prop} (meets : next.Meets going returned) {pc : Pc}
    (goes : next = .goto pc) : going pc := by
  rw [goes] at meets
  exact meets

theorem Next.Meets.resumes {Pc R : Type} {next : Next Pc R} {going : Pc → Prop}
    {returned : R → Prop} (meets : next.Meets going returned) {pc : Pc}
    (resumes : next.resume = some pc) : going pc := by
  cases next with
  | goto target =>
      cases resumes
      exact meets
  | done result => cases resumes

variable {C : Type} {A : C → Type} {R : Type}

/-- `A call` is the type of the answers to `call`, so an ill-typed answer
cannot be written down. -/
structure Routine (A : C → Type) (R : Type) where
  Pc : Type
  start : Pc
  call : Pc → C
  next : (pc : Pc) → A (call pc) → Next Pc R

abbrev Exchange (A : C → Type) := Σ call : C, A call

namespace Routine

variable (routine : Routine A R)

/-- `Returns pc trace result`: resumed at `pc`, the routine makes exactly the
exchanges of `trace`, in this order, and returns `result`. Every answer the
types allow is allowed here. -/
inductive Returns : routine.Pc → List (Exchange A) → R → Prop where
  | done {pc : routine.Pc} {answer : A (routine.call pc)} {result : R}
      (ends : routine.next pc answer = .done result) :
      Returns pc [⟨routine.call pc, answer⟩] result
  | goto {pc pc' : routine.Pc} {answer : A (routine.call pc)}
      {trace : List (Exchange A)} {result : R}
      (moves : routine.next pc answer = .goto pc')
      (rest : Returns pc' trace result) :
      Returns pc (⟨routine.call pc, answer⟩ :: trace) result

/-- A property of the points that holds at the start and wherever a call leads
from a point that has it. -/
structure Keeps (inv : routine.Pc → Prop) : Prop where
  start : inv routine.start
  next : ∀ (pc : routine.Pc) (answer : A (routine.call pc)), inv pc →
    (routine.next pc answer).Meets inv fun _ => True

/-- What a routine still owes from a point: `owed pc` lists the values under
`f` of the calls it makes from `pc` until it returns. -/
def Owes {K : Type} (f : C → Option K) (owed : routine.Pc → List K) : Prop :=
  ∀ (pc : routine.Pc) (answer : A (routine.call pc)),
    (routine.next pc answer).Meets
      (fun pc' => owed pc = (f (routine.call pc)).toList ++ owed pc')
      (fun _ => owed pc = (f (routine.call pc)).toList)

/-- A routine pays what it owes: the calls of every complete trace that `f`
selects are those the annotation announced. -/
theorem returns_pays {K : Type} {f : C → Option K} {owed : routine.Pc → List K}
    (owes : routine.Owes f owed) {pc : routine.Pc} {trace : List (Exchange A)}
    {result : R} (returns : routine.Returns pc trace result) :
    trace.filterMap (fun exchange => f exchange.1) = owed pc := by
  induction returns with
  | @done pc answer result ends =>
      have pays := owes pc answer
      rw [ends, Next.meets_done] at pays
      rw [pays]
      cases selected : f (routine.call pc) <;> simp [selected]
  | @goto pc pc' answer trace result moves rest ih =>
      have pays := owes pc answer
      rw [moves, Next.meets_goto] at pays
      rw [pays, ← ih]
      cases selected : f (routine.call pc) <;> simp [selected]

end Routine

end FileTransfer.Interaction
