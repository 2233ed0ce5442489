import Reshape.Proofs.Reduction.Conditions
import Reshape.Proofs.Reduction.Limits
import Reshape.Proofs.Template.Requests

/-!
# What validation excludes

A reduction with a valid rule does not come to what validation rejects, in the rule
itself, in the rules it calls, or where it re-enters itself (`Rule.validation_sound`): it
fails only because of a term, because a term does not shrink, or at a limit. A rule that
is not valid is rejected before anything happens.
-/

namespace Reshape

/-- The causes for which a reduction with a valid rule may fail. -/
def Cause.ofRun : Cause → Bool
  | .wrongKind .. | .undefinedArithmetic _ | .notShrinking _ | .limitReached .. => true
  | _ => false

theorem Cause.ofRun_of_blamesTerm {cause : Cause} (h : cause.blamesTerm = true) :
    cause.ofRun = true := by
  cases cause <;> first | rfl | cases h

namespace Reduction

open Eval

variable {α β : Type} {runs : Rule → Term → Eval Session Term} {x : Eval Session α}

/-- Whenever evaluation fails, it is for a cause that a valid rule may fail for. -/
def FailsInRun (x : Eval Session α) : Prop :=
  ∀ s failure s', x s = .error (.failed failure) s' → failure.cause.ofRun = true

theorem failsInRun_iff :
    FailsInRun x ↔ x.Respects (fun _ => True) (·.cause.ofRun = true) fun _ => True := by
  constructor
  · intro h s _
    cases hx : x s with
    | ok value s' => exact ⟨trivial, trivial⟩
    | error halt s' =>
      refine ⟨?_, trivial⟩
      rintro failure rfl
      exact h s failure s' hx
  · intro h s failure s' hx
    have hs := h s trivial
    rw [hx] at hs
    exact hs.1 failure rfl

theorem FailsInRun.lift {o : Outcome α}
    (h : ∀ failure, o = .error failure → failure.cause.ofRun = true) : FailsInRun (Eval.lift o) :=
  failsInRun_iff.2 (.lift (fun _ _ => trivial) h)

theorem FailsInRun.modify (f : Session → Session) :
    FailsInRun (modify f : Eval Session PUnit) :=
  fun _ _ _ heq => nomatch heq

theorem FailsInRun.bind {f : α → Eval Session β} (h : FailsInRun x)
    (hf : ∀ value, FailsInRun (f value)) : FailsInRun (x >>= f) :=
  failsInRun_iff.2 ((failsInRun_iff.1 h).bind fun value _ => failsInRun_iff.1 (hf value))

theorem FailsInRun.thenPop (h : FailsInRun x) : FailsInRun (Reduction.thenPop x) :=
  failsInRun_iff.2 (thenPop_respects (fun _ _ _ => id) (failsInRun_iff.1 h))

theorem FailsInRun.leaving (rule : String) (h : FailsInRun x) :
    FailsInRun (Eval.leaving rule x) := by
  refine failsInRun_iff.2 ((failsInRun_iff.1 h).leaving rule fun failure hcause => ?_)
  rwa [Failure.cause_leaving]

theorem enter_failsInRun {rule : Rule} (h : ∀ term, FailsInRun (runs rule term)) (term : Term) :
    FailsInRun (enter runs rule term) := by
  have hpush : FailsInRun (pushFrame rule.name) :=
    failsInRun_iff.2 (pushFrame_respects (fun _ _ _ => id) rule.name fun _ => rfl)
  refine .bind (fun _ _ _ heq => nomatch heq) fun known => ?_
  cases known with
  | some known => exact .bind (.modify _) fun _ => .lift (o := .ok known) (fun _ heq => nomatch heq)
  | none =>
    refine .bind (.leaving _ (.bind hpush fun _ => .thenPop (h term))) fun output => ?_
    exact .bind (.modify _) fun _ => .lift (o := .ok output) (fun _ heq => nomatch heq)

theorem admitFeedback_failsInRun (rule : Rule) (input next : Term) :
    FailsInRun (Eval.lift (rule.admitFeedback input next)) :=
  failsInRun_iff.2 (admitFeedback_respects input next rfl)

theorem answer_failsInRun {rule : Rule} {input : Term} {request : Request} {reenters : Bool}
    {parts : List Template} (hvalid : rule.validate = .ok ())
    (h : ∀ {rule : Rule}, rule.validate = .ok () → ∀ term, FailsInRun (runs rule term))
    (hrequest : request.Within reenters parts) : FailsInRun (answer runs rule input request) := by
  cases request with
  | self next =>
    exact .bind (admitFeedback_failsInRun rule input next) fun _ => enter_failsInRun (h hvalid) next
  | call called term => exact enter_failsInRun (h hrequest.1) term

theorem exec_failsInRun {plan : Plan α} {notes : Note → Prop} {asks : Request → Prop}
    {gives : α → Prop} {ask : Request → Eval Session Term}
    (h : plan.Abides (·.cause.blamesTerm = true) notes asks gives)
    (hask : ∀ request, asks request → FailsInRun (ask request)) :
    FailsInRun (plan.exec observe ask) := by
  induction h with
  | done _ => exact .lift (o := .ok _) (fun _ heq => nomatch heq)
  | fail hfailure =>
    refine .lift (o := .error _) fun failure heq => ?_
    cases heq
    exact Cause.ofRun_of_blamesTerm hfailure
  | @note n rest _ _ ih =>
    refine .bind ?_ fun _ => ih
    cases n <;> exact .modify _
  | ask hrequest _ ih => exact .bind (hask _ hrequest) ih

/-- Every run of a valid rule fails only for such causes: its steps do, and they hand terms
to valid rules only. -/
theorem run_failsInRun (decls : Declarations) (fuel : Nat) {rule : Rule}
    (hvalid : rule.validate = .ok ()) (input : Term) : FailsInRun (run decls fuel rule input) := by
  induction fuel generalizing rule input with
  | zero => exact fun _ _ _ heq => nomatch heq
  | succ fuel ih =>
    have hspend : FailsInRun spendStep :=
      failsInRun_iff.2 (spendStep_respects (fun _ _ _ => id) fun _ => rfl)
    refine .bind hspend fun _ => .bind (exec_failsInRun (rule.step_sound hvalid) ?_) fun step => ?_
    · exact fun request hrequest => answer_failsInRun hvalid ih hrequest
    · cases step with
      | done result => exact .lift (o := .ok result) (fun _ heq => nomatch heq)
      | again next =>
        exact .bind (admitFeedback_failsInRun rule input next) fun _ =>
          .bind (.modify _) fun _ => ih hvalid next

end Reduction

open Reduction

/-- Validation is sound for whole reductions. A reduction with a valid rule ends in no
failure that validation is there to exclude, nor, once the input is known to be acyclic,
because a term contains itself. A rule that is not valid is rejected with the failure of
its validation, and the session stays as it is. -/
theorem Rule.validation_sound (rule : Rule) (decls : Declarations) (term : Term) (s : Session)
    (hidle : s.Idle) :
    (rule.validate = .ok () → ∀ failure s', rule.Ends decls term s (.error failure) s' →
      (∀ name, failure.cause ≠ .unboundCapture name) ∧
      (∀ name, failure.cause ≠ .undeclaredRecursion name) ∧
      failure.cause ≠ .outsideRule ∧
      (decls.needAcyclic term = .ok () → ∀ name, failure.cause ≠ .cyclicTerm name)) ∧
    (∀ failure, rule.validate = .error failure → decls.needAcyclic term = .ok () →
      rule.reduce decls term s = .error (.failed failure) s) := by
  refine ⟨fun hvalid failure s' hends => ?_, fun failure hinvalid hacyclic => ?_⟩
  · rcases hends.vetted hidle with ⟨rejected, hvet, heq, -⟩ | ⟨-, fuel, henter⟩
    · cases heq
      cases hacyclic : decls.needAcyclic term with
      | error rejected =>
        obtain rfl := Except.error.inj (hvet.symm.trans (vet_of_cyclic hacyclic))
        obtain ⟨cycle, rfl⟩ := Declarations.needAcyclic_eq_error hacyclic
        exact ⟨nofun, nofun, nofun, fun haccepted => nomatch haccepted⟩
      | ok _ =>
        rw [vet_of_acyclic hacyclic, hvalid] at hvet
        cases hvet
    · have hcause : failure.cause.ofRun = true :=
        enter_failsInRun (run_failsInRun decls fuel hvalid) term s failure s' henter
      refine ⟨?_, ?_, ?_, fun _ => ?_⟩
      all_goals
        intros
        intro heq
        rw [heq] at hcause
        cases hcause
  · have hvet : rule.vet decls term = .error failure :=
      (vet_of_acyclic hacyclic).trans hinvalid
    show rule.reduceWithin s.fuel decls term s = _
    rw [reduceWithin_of_idle hidle, Eval.bind_apply, hvet]
    rfl

/-- Takes wrappings of one element off a term, and counts what is inside. -/
def counting : Rule where
  name := "counting"
  arms := [{ pattern := .tuple [.bind "inner"], body := .reduce (.capture "inner") },
    { pattern := .bind "whole"
      body := .call
        { name := "count"
          arms := [{ pattern := .bind "all", body := .length (.capture "all") }] }
        (.capture "whole") }]
  recursion := .shrinking

/-- Counts a term of which it has captured nothing. -/
def straying : Rule where
  name := "straying"
  arms := [{ pattern := .any, body := .length (.capture "all") }]

/-- A boolean inside a wrapping has no length, which is no fault of the rule; a capture that
nothing has bound is found before the first step. -/
theorem counting_blames_term_straying_rejected :
    (∀ failure s', counting.Ends ∅ (.seq [.bool true]) (.ofMode .host) (.error failure) s' →
      ∀ name, failure.cause ≠ .unboundCapture name) ∧
    (∃ s', counting.Ends ∅ (.seq [.bool true]) (.ofMode .host)
      (.error ⟨.wrongKind "sequence or text" .atom, ["count", "counting"]⟩) s') ∧
    straying.reduce ∅ (.text "x") (.ofMode .host) =
      .error (.failed ⟨.unboundCapture "all", ["straying"]⟩) (.ofMode .host) := by
  refine ⟨fun failure s' hends => ?_, ⟨_, 3, rfl⟩, ?_⟩
  · have hsound := counting.validation_sound ∅ (.seq [.bool true]) (.ofMode .host) rfl
    exact (hsound.1 (by decide +kernel) failure s' hends).1
  · have hsound := straying.validation_sound ∅ (.text "x") (.ofMode .host) rfl
    exact hsound.2 _ (by decide +kernel) (by decide +kernel)

end Reshape
