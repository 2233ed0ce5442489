import Reshape.Rule.Validity

/-!
# What validation finds

Validation rejects a rule for one of two faults, wherever in the rule or in the rules that it calls
it finds them (`Rule.validate_blamesRule`): a capture that is not bound, or a recursion that is not
declared.
-/

namespace Reshape

/-- Whether the definition of a rule is at fault. -/
def Cause.blamesRule : Cause → Bool
  | .unboundCapture _ | .undeclaredRecursion _ => true
  | _ => false

/-- A check that fails for no other faults than those of a rule. -/
def BlamesRule (check : Except Failure Unit) : Prop :=
  ∀ failure, check = .error failure → failure.cause.blamesRule = true

theorem BlamesRule.ok : BlamesRule (.ok ()) := fun _ h => nomatch h

theorem BlamesRule.bind {check : Except Failure Unit} {f : Unit → Except Failure Unit}
    (h : BlamesRule check) (hf : BlamesRule (f ())) : BlamesRule (check >>= f) := by
  cases check with
  | ok _ => exact hf
  | error failure => exact h

theorem requireBound_blamesRule (bound : List String) (name : String) :
    BlamesRule (requireBound bound name) := by
  intro failure h
  unfold requireBound at h
  split at h <;> cases h
  rfl

mutual

theorem Template.validate_blamesRule (bound : List String) (template : Template) :
    BlamesRule (template.validate bound) := by
  match template with
  | .capture name => exact requireBound_blamesRule bound name
  | .literal _ | .undefined _ => exact .ok
  | .seq items => exact Template.validateItems_blamesRule bound items
  | .text pieces => exact Template.validatePieces_blamesRule bound pieces
  | .recase _ inner | .length inner | .reduce inner => exact inner.validate_blamesRule bound
  | .apply _ args => exact Template.validateAll_blamesRule bound args
  | .function _ receiver params result =>
    exact (Template.validateOption_blamesRule bound receiver).bind
      ((params.validate_blamesRule bound).bind (result.validate_blamesRule bound))
  | .mapFields source key filter value _ _ =>
    exact (source.validate_blamesRule bound).bind
      ((Template.validateOption_blamesRule (fieldScope bound) key).bind
        ((Guard.validateOption_blamesRule (fieldScope bound) filter).bind
          (value.validate_blamesRule (fieldScope bound))))
  | .call rule inner => exact (inner.validate_blamesRule bound).bind rule.validate_blamesRule
termination_by structural template

theorem Template.validateItems_blamesRule (bound : List String) (items : List (SeqItem Template)) :
    BlamesRule (Template.validateItems bound items) := by
  match items with
  | [] => exact .ok
  | .element template :: rest | .splice template :: rest =>
    exact (template.validate_blamesRule bound).bind (Template.validateItems_blamesRule bound rest)
termination_by structural items

theorem Template.validatePieces_blamesRule (bound : List String)
    (pieces : List (TextPiece Template)) : BlamesRule (Template.validatePieces bound pieces) := by
  match pieces with
  | [] => exact .ok
  | .literal _ :: rest => exact Template.validatePieces_blamesRule bound rest
  | .insert template :: rest =>
    exact (template.validate_blamesRule bound).bind (Template.validatePieces_blamesRule bound rest)
termination_by structural pieces

theorem Template.validateAll_blamesRule (bound : List String) (templates : List Template) :
    BlamesRule (Template.validateAll bound templates) := by
  match templates with
  | [] => exact .ok
  | template :: rest =>
    exact (template.validate_blamesRule bound).bind (Template.validateAll_blamesRule bound rest)
termination_by structural templates

theorem Template.validateOption_blamesRule (bound : List String) (template : Option Template) :
    BlamesRule (Template.validateOption bound template) := by
  match template with
  | none => exact .ok
  | some template => exact template.validate_blamesRule bound
termination_by structural template

theorem Guard.validate_blamesRule (bound : List String) (guard : Guard) :
    BlamesRule (guard.validate bound) := by
  match guard with
  | .equal left right | .fits left right =>
    exact (left.validate_blamesRule bound).bind (right.validate_blamesRule bound)
  | .negation inner => exact inner.validate_blamesRule bound
  | .all guards => exact Guard.validateAll_blamesRule bound guards
termination_by structural guard

theorem Guard.validateAll_blamesRule (bound : List String) (guards : List Guard) :
    BlamesRule (Guard.validateAll bound guards) := by
  match guards with
  | [] => exact .ok
  | guard :: rest =>
    exact (guard.validate_blamesRule bound).bind (Guard.validateAll_blamesRule bound rest)
termination_by structural guards

theorem Guard.validateOption_blamesRule (bound : List String) (guard : Option Guard) :
    BlamesRule (Guard.validateOption bound guard) := by
  match guard with
  | none => exact .ok
  | some guard => exact guard.validate_blamesRule bound
termination_by structural guard

theorem Arm.validate_blamesRule (arm : Arm) : BlamesRule arm.validate := by
  match arm with
  | ⟨pattern, guard, body⟩ =>
    exact (Guard.validateOption_blamesRule pattern.binders guard).bind
      (body.validate_blamesRule pattern.binders)
termination_by structural arm

theorem Arm.validateAll_blamesRule (arms : List Arm) : BlamesRule (Arm.validateAll arms) := by
  match arms with
  | [] => exact .ok
  | arm :: rest => exact arm.validate_blamesRule.bind (Arm.validateAll_blamesRule rest)
termination_by structural arms

/-- A rule is rejected for a capture that is not bound or a recursion that is not declared. -/
theorem Rule.validate_blamesRule (rule : Rule) : BlamesRule rule.validate := by
  match rule with
  | ⟨name, arms, _, recursion⟩ =>
    intro failure h
    rw [Rule.validate] at h
    split at h
    · cases h
      rfl
    · cases hall : Arm.validateAll arms with
      | ok _ =>
        rw [hall] at h
        cases h
      | error inner =>
        rw [hall] at h
        cases h
        rw [Failure.cause_leaving]
        exact Arm.validateAll_blamesRule arms inner hall
termination_by structural rule

end

end Reshape
