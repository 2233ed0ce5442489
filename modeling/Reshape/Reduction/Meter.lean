import Reshape.Failure

/-!
# Limiting and counting a reduction

A mode sets the limits of a reduction: how deep rules may nest, and how many
steps it may take altogether. The meter of a reduction counts its steps against
the budget. If it is told to, it also keeps counters of what happened.
-/

namespace Reshape

/-- Limits for the host's own reductions, for folding constants, for tests, and
limits of the host's choice. Without a budget the number of steps is unlimited. -/
inductive Mode where
  | host
  | constEval (budget : Nat)
  | testRun
  | custom (maxDepth : Nat) (budget : Option Nat)
  deriving DecidableEq, Repr, Inhabited

namespace Mode

/-- The greatest number of nested rule applications. -/
def maxDepth : Mode → Nat
  | host => 10000
  | constEval _ => 512
  | testRun => 2000
  | custom maxDepth _ => maxDepth

/-- The number of steps allowed altogether, if it is limited. -/
def budget? : Mode → Option Nat
  | host => some 1000000
  | constEval budget => some budget
  | testRun => some 100000
  | custom _ budget => budget

end Mode

/-- What happened in a reduction: arms tried, arms taken, terms fed back without
nesting, rules entered, results found in the memo, and the deepest nesting. -/
structure Counters where
  armsTried : Nat := 0
  armsTaken : Nat := 0
  feedbacks : Nat := 0
  entries : Nat := 0
  recalls : Nat := 0
  deepest : Nat := 0
  deriving DecidableEq, Repr, Inhabited

/-- Steps taken so far, and counters if they are enabled. -/
structure Meter where
  budget : Option Nat
  steps : Nat := 0
  counters : Option Counters := none
  deriving DecidableEq, Repr, Inhabited

namespace Meter

def ofMode (mode : Mode) : Meter := { budget := mode.budget? }

def withCounters (meter : Meter) : Meter := { meter with counters := some {} }

/-- The meter after one more step. -/
def step (meter : Meter) : Meter := { meter with steps := meter.steps + 1 }

/-- The budget, if more steps than it allows were taken. -/
def overdrawn? (meter : Meter) : Option Nat :=
  meter.budget.filter (· < meter.steps)

/-- Fails if more steps were taken than the budget allows. -/
def check (meter : Meter) : Except Failure Unit :=
  match meter.overdrawn? with
  | some budget => .error ⟨.limitReached .steps budget, []⟩
  | none => .ok ()

theorem check_eq_error {meter : Meter} {failure : Failure} (h : meter.check = .error failure) :
    ∃ budget, failure = ⟨.limitReached .steps budget, []⟩ := by
  unfold check at h
  split at h <;> cases h
  exact ⟨_, rfl⟩

/-- Changes the counters if they are enabled. -/
def count (f : Counters → Counters) (meter : Meter) : Meter :=
  { meter with counters := meter.counters.map f }

def armTried : Meter → Meter :=
  count fun c => { c with armsTried := c.armsTried + 1 }

def armTaken : Meter → Meter :=
  count fun c => { c with armsTaken := c.armsTaken + 1 }

def fedBack : Meter → Meter :=
  count fun c => { c with feedbacks := c.feedbacks + 1 }

/-- Counts a rule entered at a depth. -/
def entered (depth : Nat) : Meter → Meter :=
  count fun c =>
    { c with entries := c.entries + 1, deepest := max c.deepest depth }

def recalled : Meter → Meter :=
  count fun c => { c with recalls := c.recalls + 1 }

end Meter

end Reshape
