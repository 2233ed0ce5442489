import Reshape.Reduction.Frames
import Reshape.Reduction.Memo
import Reshape.Reduction.Meter
import Reshape.Reduction.Step
import Reshape.Rule.Validity

/-!
# Reduction

A reduction runs one rule on a term to a result, step by step. A step that gives
a term to go on with continues with it in the same frame; any rule that a step
asks for enters a new frame on top (`enter`), up to the greatest depth. Every
step counts against the budget.

A session holds what lasts from one reduction to the next: the meter, the memo
and the frames, which are empty between reductions. It is kept when a reduction
fails.

Each step and each frame takes one unit of fuel from those below it (`run`). With
a budget there is fuel for every step that the budget allows and for the one
that overdraws it, so fuel only cuts off reductions without a budget.
-/

namespace Reshape

/-- The state of a reduction and of the ones before it. -/
structure Session where
  meter : Meter
  frames : Frames
  memo : Option Memo := none
  deriving Inhabited

namespace Session

def ofMode (mode : Mode) (memo : Option Memo := none) : Session :=
  { meter := .ofMode mode, frames := .empty mode.maxDepth, memo }

def withCounters (session : Session) : Session :=
  { session with meter := session.meter.withCounters }

/-- The fuel of a reduction whose steps are not limited. -/
def patience : Nat := Nat.pow 2 62

/-- Fuel for every step that is left, and one more. -/
def fuel (session : Session) : Nat :=
  match session.meter.budget with
  | some budget => budget - session.meter.steps + 1
  | none => patience

end Session

namespace Reduction

/-- Updates the meter. -/
def tick (f : Meter → Meter) : Eval Session Unit :=
  modify fun session => { session with meter := f session.meter }

/-- Takes a step out of the budget. -/
def spendStep : Eval Session Unit := do
  tick Meter.step
  Eval.lift (← get).meter.check

/-- Puts a frame for a rule on top. -/
def pushFrame (rule : String) : Eval Session Unit := do
  let frames ← Eval.lift ((← get).frames.push rule)
  modify fun session => { session with frames }
  tick (Meter.entered frames.depth)

/-- Runs and takes the top frame off afterwards, on success and on failure. -/
def thenPop {α : Type} (x : Eval Session α) : Eval Session α := fun session =>
  match x session with
  | .ok value session => .ok value { session with frames := session.frames.pop }
  | .error halt session => .error halt { session with frames := session.frames.pop }

/-- Looks a result up in the memo, if there is one. -/
def known? (rule : Rule) (term : Term) : Eval Session (Option Term) := do
  return (← get).memo.bind (·.get? rule term)

/-- Keeps a result in the memo, if there is one. -/
def remember (rule : Rule) (input output : Term) : Eval Session Unit :=
  modify fun session => { session with memo := session.memo.map (·.insert rule input output) }

/-- Applies a rule in a frame of its own, where `run` runs it: a known result is
recalled, a new one remembered, and a failure leaves the rule on its trail. -/
def enter (run : Rule → Term → Eval Session Term) (rule : Rule) (term : Term) :
    Eval Session Term := do
  match ← known? rule term with
  | some known =>
    tick Meter.recalled
    return known
  | none =>
    let output ← Eval.leaving rule.name do
      pushFrame rule.name
      thenPop (run rule term)
    remember rule term output
    return output

/-- Counts what a plan notes. -/
def observe : Note → Eval Session Unit
  | .armTried => tick Meter.armTried
  | .armTaken => tick Meter.armTaken

/-- Answers what a step of a rule on an input asks for; a term that is fed back
has to be admitted first. -/
def answer (run : Rule → Term → Eval Session Term) (rule : Rule) (input : Term) :
    Request → Eval Session Term
  | .self next => do
    Eval.lift (rule.admitFeedback input next)
    enter run rule next
  | .call called term => enter run called term

/-- Goes on after a step: with the result, or with the next step on an admitted
term. -/
def proceed (run : Rule → Term → Eval Session Term) (rule : Rule) (input : Term) :
    Step → Eval Session Term
  | .done result => return result
  | .again next => do
    Eval.lift (rule.admitFeedback input next)
    tick Meter.fedBack
    run rule next

/-- Runs a rule inside its frame until it has a result. -/
def run (decls : Declarations) : (fuel : Nat) → Rule → Term → Eval Session Term
  | 0, _, _ => throw .unfinished
  | fuel + 1, rule, input => do
    spendStep
    let step ← (rule.step decls input).exec observe (answer (run decls fuel) rule input)
    proceed (run decls fuel) rule input step

end Reduction

/-- Rejects a term that contains itself, and a rule that is not valid. -/
def Rule.vet (rule : Rule) (decls : Declarations) (term : Term) : Except Failure Unit := do
  decls.needAcyclic term
  rule.validate

/-- Reduces a term with a rule, on the given fuel. Input and rule are checked
first, unless a reduction is going on. -/
def Rule.reduceWithin (fuel : Nat) (rule : Rule) (decls : Declarations) (term : Term) :
    Eval Session Term := do
  if (← get).frames.isEmpty then Eval.lift (rule.vet decls term)
  Reduction.enter (Reduction.run decls fuel) rule term

/-- Reduces a term with a rule. -/
def Rule.reduce (rule : Rule) (decls : Declarations) (term : Term) : Eval Session Term := do
  rule.reduceWithin (← get).fuel decls term

end Reshape
