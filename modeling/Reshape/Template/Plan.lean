import Reshape.Rule.Basic

/-!
# Plans

Building a template needs something of the reduction around it in two places
only: where a term is fed back into the rule that the template stands in, and
where a term is handed to another rule. A plan is a value that is built up to
the first such request, and goes on with whatever the answer is. It says what a
template does whatever the limits, the memo and the earlier steps of the
reduction are; `exec` carries it out in a reduction.

A plan also notes when an arm is tried and when one is taken.

Carrying a plan out may fail, and it changes the state of the session around it. A
failure keeps the state it happened in. Evaluation that is not bounded by a number of
steps is cut off after a given amount of work; `Halt.unfinished` tells this apart from
a failure.
-/

namespace Reshape

/-! ## Evaluation -/

/-- Why evaluation stopped without a result. -/
inductive Halt where
  | failed (failure : Failure)
  | unfinished
  deriving DecidableEq, Repr

/-- Evaluation with a state, which is kept when evaluation stops early. -/
abbrev Eval (σ : Type) := EStateM Halt σ

namespace Eval

variable {σ α : Type}

def fail (cause : Cause) : Eval σ α := throw (.failed ⟨cause, []⟩)

/-- The result of a computation without a state. -/
def lift : Except Failure α → Eval σ α
  | .ok value => pure value
  | .error failure => throw (.failed failure)

/-- Records on the trail of a failure that it left a rule. -/
def leaving (rule : String) (x : Eval σ α) : Eval σ α := fun s =>
  match x s with
  | .error (.failed failure) s => .error (.failed (failure.leaving rule)) s
  | other => other

end Eval

/-! ## Plans -/

/-- What a plan asks for: to run the rule around it on a term, or another one. -/
inductive Request where
  | self (next : Term)
  | call (rule : Rule) (input : Term)

/-- What a plan reports on its way. -/
inductive Note where
  | armTried
  | armTaken
  deriving DecidableEq, Repr

/-- How a value is built, step by step. -/
inductive Plan (α : Type) where
  | done (value : α)
  | fail (failure : Failure)
  | note (note : Note) (rest : Plan α)
  | ask (request : Request) (next : Term → Plan α)

namespace Plan

variable {α β γ σ : Type}

/-- One plan after another. -/
def bind : Plan α → (α → Plan β) → Plan β
  | done value, f => f value
  | fail failure, _ => fail failure
  | note n rest, f => note n (rest.bind f)
  | ask request next, f => ask request fun answer => (next answer).bind f

instance : Monad Plan where
  pure := done
  bind := bind

instance : Inhabited (Plan α) := ⟨fail ⟨.outsideRule, []⟩⟩

/-- The result of a computation that asks for nothing. -/
def lift : Except Failure α → Plan α
  | .ok value => done value
  | .error failure => fail failure

@[simp] theorem pure_eq (value : α) : (pure value : Plan α) = done value := rfl

@[simp] theorem done_bind (value : α) (f : α → Plan β) : done value >>= f = f value := rfl

@[simp] theorem fail_bind (failure : Failure) (f : α → Plan β) :
    fail failure >>= f = fail failure := rfl

@[simp] theorem note_bind (n : Note) (rest : Plan α) (f : α → Plan β) :
    note n rest >>= f = note n (rest >>= f) := rfl

@[simp] theorem ask_bind (request : Request) (next : Term → Plan α) (f : α → Plan β) :
    ask request next >>= f = ask request fun answer => next answer >>= f := rfl

theorem bind_done (plan : Plan α) : plan >>= done = plan := by
  induction plan with
  | done => rfl
  | fail => rfl
  | note n rest ih => rw [note_bind, ih]
  | ask request next ih => rw [ask_bind, funext ih]

theorem bind_assoc (plan : Plan α) (f : α → Plan β) (g : β → Plan γ) :
    plan >>= f >>= g = plan >>= fun value => f value >>= g := by
  induction plan with
  | done => rfl
  | fail => rfl
  | note n rest ih => simp only [note_bind, ih]
  | ask request next ih => simp only [ask_bind, ih]

instance : LawfulMonad Plan :=
  LawfulMonad.mk' Plan bind_done (fun _ _ => rfl) bind_assoc

/-- Carries a plan out: notes are taken and requests answered in order. -/
def exec (observe : Note → Eval σ Unit) (answer : Request → Eval σ Term) : Plan α → Eval σ α
  | done value => pure value
  | fail failure => throw (.failed failure)
  | note n rest => do
    observe n
    rest.exec observe answer
  | ask request next => do
    let term ← answer request
    (next term).exec observe answer

theorem exec_bind (observe : Note → Eval σ Unit) (answer : Request → Eval σ Term) (plan : Plan α)
    (f : α → Plan β) :
    (plan >>= f).exec observe answer =
      plan.exec observe answer >>= fun value => (f value).exec observe answer := by
  induction plan with
  | done value => rw [done_bind, exec, LawfulMonad.pure_bind]
  | fail failure => rfl
  | note n rest ih => rw [note_bind, exec, exec, ih, LawfulMonad.bind_assoc]
  | ask request next ih =>
    rw [ask_bind, exec, exec, LawfulMonad.bind_assoc]
    simp only [ih]

end Plan

end Reshape
