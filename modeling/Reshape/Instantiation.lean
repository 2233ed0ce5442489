import Reshape.Reduction.Session

/-!
# Templates outside of a rule

A template can be built from captures without a rule around it. There is nothing
for `reduce` to feed a term back into, and `call` starts a reduction of its own
with the host's limits.
-/

namespace Reshape

variable {decls : Declarations} {term : Term} {o : Except Failure Term}

/-- Reduces in a new session, and drops the session afterwards. -/
def Rule.reduceAfresh (mode : Mode) (rule : Rule) (decls : Declarations) (term : Term) :
    Except Halt Term :=
  match rule.reduce decls term (.ofMode mode) with
  | .ok result _ => .ok result
  | .error halt _ => .error halt

theorem Rule.reduceAfresh_of_reduce {mode : Mode} {rule : Rule} {s : Session}
    (h : rule.reduce decls term (.ofMode mode) = Eval.lift o s) :
    rule.reduceAfresh mode decls term = o.mapError .failed := by
  rw [reduceAfresh, h]
  cases o <;> rfl

/-- Answers what a template asks for where no rule is being run. -/
def Request.answerOutside (decls : Declarations) : Request → Eval Unit Term
  | .self _ => Eval.fail .outsideRule
  | .call rule term => fun _ =>
    match rule.reduceAfresh .host decls term with
    | .ok result => .ok result ()
    | .error halt => .error halt ()

/-- A call is answered as the reduction of its own ends. -/
theorem Request.answerOutside_of_reduce {called : Rule} {s : Session}
    (h : called.reduce decls term (.ofMode .host) = Eval.lift o s) :
    (Request.call called term).answerOutside decls () = Eval.lift o () := by
  rw [answerOutside, Rule.reduceAfresh_of_reduce h]
  cases o <;> rfl

/-- Builds a template from captures, outside of a rule. -/
def Template.instantiate (template : Template) (decls : Declarations) (captures : Captures) :
    Except Halt Term :=
  match (template.build decls captures).exec (fun _ => pure ()) (Request.answerOutside decls) () with
  | .ok term _ => .ok term
  | .error halt _ => .error halt

section

variable {template : Template} {captures : Captures}

theorem Template.instantiate_of_exec
    (h : (template.build decls captures).exec (fun _ => pure ()) (Request.answerOutside decls) () =
      Eval.lift o ()) :
    template.instantiate decls captures = o.mapError .failed := by
  rw [instantiate, h]
  cases o <;> rfl

/-- A template that asks for nothing is built in the same way everywhere. -/
theorem Template.instantiate_of_build (h : template.build decls captures = .done term) :
    template.instantiate decls captures = .ok term := by
  rw [instantiate, h]
  rfl

end

end Reshape
