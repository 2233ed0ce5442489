import Reshape.Declarations.Cycle

/-!
# Failures

Why building a term or a reduction fails: a cause and the trail of rules that it left
on its way out, the innermost first. A pattern that does not match is no
failure.
-/

namespace Reshape

/-- The limits on a reduction: how deep rules nest, and how many steps it takes
altogether. -/
inductive Limit where
  | depth
  | steps
  deriving DecidableEq, Repr

def Limit.name : Limit → String
  | depth => "depth"
  | steps => "step"

/-- What went wrong. -/
inductive Cause where
  | unboundCapture (name : String)
  | undefinedArithmetic (reason : String)
  | limitReached (limit : Limit) (max : Nat)
  | cyclicTerm (name : String)
  | notShrinking (rule : String)
  | undeclaredRecursion (rule : String)
  | wrongKind (expected : String) (found : Term.Kind)
  | outsideRule
  | unknownRule (name : String)
  | wrongArity (rule : String) (expected got : Nat)
  deriving DecidableEq, Repr

namespace Cause

def message : Cause → String
  | unboundCapture name => "template references unbound capture `" ++ name ++ "`"
  | undefinedArithmetic reason => "arithmetic result is undefined: " ++ reason
  | limitReached limit max =>
    "reduction " ++ limit.name ++ " limit exceeded (limit: " ++ toString max ++ ")"
  | cyclicTerm name => "term `" ++ name ++ "` contains itself"
  | notShrinking rule =>
    "rule `" ++ rule ++ "` fed back a term that is not smaller than its input"
  | undeclaredRecursion rule =>
    "rule `" ++ rule ++ "` re-enters itself but is not declared recursive"
  | wrongKind expected found => "expected " ++ expected ++ ", found " ++ found.name
  | outsideRule => "`reduce` used outside of a rule"
  | unknownRule name => "unknown rule `" ++ name ++ "`"
  | wrongArity rule expected got =>
    "rule `" ++ rule ++ "` expects " ++ toString expected ++ " argument(s), got " ++ toString got

/-- A term of another kind than the one that is needed. -/
def needsKind (expected found : Term.Kind) : Cause :=
  wrongKind expected.name found

/-- A cycle among the declarations makes the terms on it unusable. -/
def ofCycle (cycle : Cycle) : Cause := cyclicTerm cycle.name

/-- Whether a limit ran out, and neither the rules nor the input are at fault. -/
def hitLimit : Cause → Bool
  | limitReached .. => true
  | _ => false

end Cause

/-- A cause with the rules it passed through, the innermost first. -/
structure Failure where
  cause : Cause
  trail : List String := []
  deriving DecidableEq, Repr

namespace Failure

/-- Records that the failure left a rule. A rule that is already the last on the
trail is not recorded again, so nested runs of one rule leave one entry. -/
def leaving (failure : Failure) (rule : String) : Failure :=
  if failure.trail.getLast? = some rule then failure
  else { failure with trail := failure.trail ++ [rule] }

theorem cause_leaving (failure : Failure) (rule : String) :
    (failure.leaving rule).cause = failure.cause := by
  unfold leaving
  split <;> rfl

theorem leaving_leaving (failure : Failure) (rule : String) :
    (failure.leaving rule).leaving rule = failure.leaving rule := by
  by_cases h : failure.trail.getLast? = some rule <;> simp [leaving, h]

def message (failure : Failure) : String :=
  failure.cause.message ++
    if failure.trail.isEmpty then "" else " (in " ++ " <- ".intercalate failure.trail ++ ")"

def hitLimit (failure : Failure) : Bool := failure.cause.hitLimit

end Failure

/-- What comes after a check gives a value only if the check passes. -/
theorem bind_eq_ok {α : Type} {check : Except Failure Unit} {f : Unit → Except Failure α} {value : α}
    (h : check >>= f = .ok value) : check = .ok () ∧ f () = .ok value := by
  cases check with
  | ok _ => exact ⟨rfl, h⟩
  | error failure => cases h

end Reshape
