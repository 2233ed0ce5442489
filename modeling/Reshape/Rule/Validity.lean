import Reshape.Rule.Basic

/-!
# Validation

A rule can be rejected before it runs: when a guard or a template uses a capture
that the arm's pattern does not bind, or when an arm re-enters a rule that is
not declared recursive. While fields are mapped, the key and the value are bound
as well. Called rules are validated too.

A failure inside an arm carries the rule's name on its trail; a recursion that
is not declared fails before any arm is looked at and leaves no trail.
-/

namespace Reshape

/-- Accepts a capture that is in scope. -/
def requireBound (bound : List String) (name : String) : Except Failure Unit :=
  if bound.contains name then .ok () else .error ⟨.unboundCapture name, []⟩

/-- The captures in scope while a field is mapped. -/
def fieldScope (bound : List String) : List String :=
  Captures.keyName :: Captures.valueName :: bound

mutual

/-- Accepts a template that uses only captures in scope and calls only valid
rules. -/
def Template.validate (bound : List String) : Template → Except Failure Unit
  | .capture name => requireBound bound name
  | .literal _ => .ok ()
  | .seq items => Template.validateItems bound items
  | .text pieces => Template.validatePieces bound pieces
  | .recase _ inner => inner.validate bound
  | .length inner => inner.validate bound
  | .apply _ args => Template.validateAll bound args
  | .function _ receiver params result => do
    Template.validateOption bound receiver
    params.validate bound
    result.validate bound
  | .mapFields source key filter value _ _ => do
    source.validate bound
    Template.validateOption (fieldScope bound) key
    Guard.validateOption (fieldScope bound) filter
    value.validate (fieldScope bound)
  | .reduce inner => inner.validate bound
  | .call rule inner => do
    inner.validate bound
    rule.validate
  | .undefined _ => .ok ()
termination_by structural template => template

/-- Validates the items of a sequence template in order. -/
def Template.validateItems (bound : List String) :
    List (SeqItem Template) → Except Failure Unit
  | [] => .ok ()
  | .element template :: rest => do
    template.validate bound
    Template.validateItems bound rest
  | .splice template :: rest => do
    template.validate bound
    Template.validateItems bound rest
termination_by structural items => items

/-- Validates the pieces of a text template in order. -/
def Template.validatePieces (bound : List String) :
    List (TextPiece Template) → Except Failure Unit
  | [] => .ok ()
  | .literal _ :: rest => Template.validatePieces bound rest
  | .insert template :: rest => do
    template.validate bound
    Template.validatePieces bound rest
termination_by structural pieces => pieces

/-- Validates templates in order. -/
def Template.validateAll (bound : List String) : List Template → Except Failure Unit
  | [] => .ok ()
  | template :: rest => do
    template.validate bound
    Template.validateAll bound rest
termination_by structural templates => templates

/-- Validates a template that may be missing. -/
def Template.validateOption (bound : List String) : Option Template → Except Failure Unit
  | none => .ok ()
  | some template => template.validate bound
termination_by structural template => template

/-- Accepts a guard whose templates are valid. -/
def Guard.validate (bound : List String) : Guard → Except Failure Unit
  | .equal left right => do
    left.validate bound
    right.validate bound
  | .fits sub sup => do
    sub.validate bound
    sup.validate bound
  | .negation inner => inner.validate bound
  | .all guards => Guard.validateAll bound guards
termination_by structural guard => guard

/-- Validates guards in order. -/
def Guard.validateAll (bound : List String) : List Guard → Except Failure Unit
  | [] => .ok ()
  | guard :: rest => do
    guard.validate bound
    Guard.validateAll bound rest
termination_by structural guards => guards

/-- Validates a guard that may be missing. -/
def Guard.validateOption (bound : List String) : Option Guard → Except Failure Unit
  | none => .ok ()
  | some guard => guard.validate bound
termination_by structural guard => guard

/-- Accepts an arm whose guard and body use only captures of its pattern. -/
def Arm.validate : Arm → Except Failure Unit
  | ⟨pattern, guard, body⟩ => do
    Guard.validateOption pattern.binders guard
    body.validate pattern.binders
termination_by structural arm => arm

/-- Validates arms in order. -/
def Arm.validateAll : List Arm → Except Failure Unit
  | [] => .ok ()
  | arm :: rest => do
    arm.validate
    Arm.validateAll rest
termination_by structural arms => arms

/-- Accepts a rule with valid arms that re-enters itself only if it says so. -/
def Rule.validate : Rule → Except Failure Unit
  | ⟨name, arms, _, recursion⟩ =>
    if recursion = .forbidden && arms.any Arm.reenters then
      .error ⟨.undeclaredRecursion name, []⟩
    else (Arm.validateAll arms).mapError (·.leaving name)
termination_by structural rule => rule

end

end Reshape
