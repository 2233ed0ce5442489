import Reshape.Pattern.Match
import Reshape.Template.Build

/-!
# Steps

A step of a rule tries its arms in order on a term. The first arm whose pattern
matches and whose guard holds is taken: it gives the result, or, if all of its
body feeds a term back, the term to go on with. If there is no such arm, the
terminal gives the result.
-/

namespace Reshape

/-- The outcome of one step: a result, or a term to go on with. -/
inductive Step where
  | done (result : Term)
  | again (next : Term)

/-- What a rule gives when no arm applies. -/
def Terminal.result : Terminal → Term → Except Failure Term
  | .input, given => .ok given
  | .term result, _ => .ok result
  | .unmatched, _ => .ok .never
  | .undefined reason, _ => .error ⟨.undefinedArithmetic reason, []⟩

theorem Terminal.result_eq_error {terminal : Terminal} {input : Term} {failure : Failure}
    (h : terminal.result input = .error failure) :
    ∃ reason, terminal = .undefined reason ∧ failure = ⟨.undefinedArithmetic reason, []⟩ := by
  cases terminal <;> cases h
  exact ⟨_, rfl, rfl⟩

/-- Rejects a term fed back into a shrinking rule that is not smaller than the
rule's input. -/
def Rule.admitFeedback (rule : Rule) (input next : Term) : Except Failure Unit :=
  if rule.recursion = .shrinking && input.size ≤ next.size then
    .error ⟨.notShrinking rule.name, []⟩
  else .ok ()

theorem Rule.admitFeedback_eq_error {rule : Rule} {input next : Term} {failure : Failure}
    (h : rule.admitFeedback input next = .error failure) :
    failure = ⟨.notShrinking rule.name, []⟩ := by
  unfold admitFeedback at h
  split at h <;> cases h
  rfl

/-- A smaller term is admitted by every rule. -/
theorem Rule.admitFeedback_of_size_lt {rule : Rule} {input next : Term} (h : next.size < input.size) :
    rule.admitFeedback input next = .ok () := by
  rw [admitFeedback, decide_eq_false (Nat.not_le_of_lt h), Bool.and_false, if_neg Bool.false_ne_true]

/-- What an arm that is taken gives. -/
def Arm.take (decls : Declarations) (arm : Arm) (captures : Captures) : Plan Step :=
  match arm.body with
  | .reduce inner => return .again (← inner.build decls captures)
  | body => return .done (← body.build decls captures)

/-- Tries arms in order; the terminal decides if none applies. -/
def Arm.tryEach (decls : Declarations) (terminal : Terminal) (input : Term) :
    List Arm → Plan Step
  | [] => return .done (← Plan.lift (terminal.result input))
  | arm :: rest => .note .armTried <|
    match arm.pattern.captures? decls input with
    | none => tryEach decls terminal input rest
    | some captures => do
      if ← Guard.holdsIfAny decls arm.guard captures then .note .armTaken (arm.take decls captures)
      else tryEach decls terminal input rest

/-- One step of a rule. -/
def Rule.step (decls : Declarations) (rule : Rule) (input : Term) : Plan Step :=
  Arm.tryEach decls rule.terminal input rule.arms

end Reshape
