import Reshape.Proofs.Reduction.Settling

/-!
# One outcome at one cost

A rule settles on a term in one way only: the outcome, what becomes of the memo and the cost are the
same in any two derivations (`Rule.Settles.deterministic`). So a limit that cannot meet the cost is
always reached.
-/

namespace Reshape

variable {decls : Declarations}

mutual

theorem Rule.Settles.deterministic {rule : Rule} {input : Term} {memo memo₁ memo₂ : Option Memo}
    {o₁ o₂ : Outcome Term} {cost₁ cost₂ : Cost}
    (h₁ : Rule.Settles decls rule input memo o₁ memo₁ cost₁)
    (h₂ : Rule.Settles decls rule input memo o₂ memo₂ cost₂) :
    o₁ = o₂ ∧ memo₁ = memo₂ ∧ cost₁ = cost₂ := by
  match h₁ with
  | .failed hplan =>
    cases h₂ with
    | failed hplan' =>
      obtain ⟨heq, rfl, rfl⟩ := hplan.deterministic hplan'
      cases heq
      exact ⟨rfl, rfl, rfl⟩
    | done hplan' | refused hplan' _ | again hplan' _ _ => cases (hplan.deterministic hplan').1
  | .done hplan =>
    cases h₂ with
    | done hplan' =>
      obtain ⟨heq, rfl, rfl⟩ := hplan.deterministic hplan'
      cases heq
      exact ⟨rfl, rfl, rfl⟩
    | failed hplan' | refused hplan' _ | again hplan' _ _ => cases (hplan.deterministic hplan').1
  | .refused hplan hfeedback =>
    cases h₂ with
    | refused hplan' hfeedback' =>
      obtain ⟨heq, rfl, rfl⟩ := hplan.deterministic hplan'
      cases heq
      cases hfeedback.symm.trans hfeedback'
      exact ⟨rfl, rfl, rfl⟩
    | again hplan' hfeedback' _ =>
      cases (hplan.deterministic hplan').1
      cases hfeedback.symm.trans hfeedback'
    | failed hplan' | done hplan' => cases (hplan.deterministic hplan').1
  | .again hplan hfeedback hrest =>
    cases h₂ with
    | again hplan' _ hrest' =>
      obtain ⟨heq, rfl, rfl⟩ := hplan.deterministic hplan'
      cases heq
      obtain ⟨rfl, rfl, rfl⟩ := hrest.deterministic hrest'
      exact ⟨rfl, rfl, rfl⟩
    | refused hplan' hfeedback' =>
      cases (hplan.deterministic hplan').1
      cases hfeedback.symm.trans hfeedback'
    | failed hplan' | done hplan' => cases (hplan.deterministic hplan').1
termination_by structural h₁

theorem Rule.Enters.deterministic {rule : Rule} {input : Term} {memo memo₁ memo₂ : Option Memo}
    {o₁ o₂ : Outcome Term} {cost₁ cost₂ : Cost}
    (h₁ : Rule.Enters decls rule input memo o₁ memo₁ cost₁)
    (h₂ : Rule.Enters decls rule input memo o₂ memo₂ cost₂) :
    o₁ = o₂ ∧ memo₁ = memo₂ ∧ cost₁ = cost₂ := by
  match h₁ with
  | .recalled hknown =>
    cases h₂ with
    | recalled hknown' =>
      cases hknown.symm.trans hknown'
      exact ⟨rfl, rfl, rfl⟩
    | ran hnone _ | failed hnone _ => cases hknown.symm.trans hnone
  | .ran hnone hruns =>
    cases h₂ with
    | recalled hknown => cases hknown.symm.trans hnone
    | ran _ hruns' =>
      obtain ⟨heq, rfl, rfl⟩ := hruns.deterministic hruns'
      cases heq
      exact ⟨rfl, rfl, rfl⟩
    | failed _ hruns' => cases (hruns.deterministic hruns').1
  | .failed hnone hruns =>
    cases h₂ with
    | recalled hknown => cases hknown.symm.trans hnone
    | ran _ hruns' => cases (hruns.deterministic hruns').1
    | failed _ hruns' =>
      obtain ⟨heq, rfl, rfl⟩ := hruns.deterministic hruns'
      cases heq
      exact ⟨rfl, rfl, rfl⟩
termination_by structural h₁

theorem Request.Settles.deterministic {rule : Rule} {input : Term} {request : Request}
    {memo memo₁ memo₂ : Option Memo} {o₁ o₂ : Outcome Term} {cost₁ cost₂ : Cost}
    (h₁ : Request.Settles decls rule input request memo o₁ memo₁ cost₁)
    (h₂ : Request.Settles decls rule input request memo o₂ memo₂ cost₂) :
    o₁ = o₂ ∧ memo₁ = memo₂ ∧ cost₁ = cost₂ := by
  match h₁ with
  | .refused hfeedback =>
    cases h₂ with
    | refused hfeedback' =>
      cases hfeedback.symm.trans hfeedback'
      exact ⟨rfl, rfl, rfl⟩
    | self hfeedback' _ => cases hfeedback.symm.trans hfeedback'
  | .self hfeedback henters =>
    cases h₂ with
    | refused hfeedback' => cases hfeedback.symm.trans hfeedback'
    | self _ henters' => exact henters.deterministic henters'
  | .call henters =>
    cases h₂ with
    | call henters' => exact henters.deterministic henters'
termination_by structural h₁

theorem Plan.Settles.deterministic {rule : Rule} {input : Term} {α : Type} {plan : Plan α}
    {memo memo₁ memo₂ : Option Memo} {o₁ o₂ : Outcome α} {cost₁ cost₂ : Cost}
    (h₁ : Plan.Settles decls rule input plan memo o₁ memo₁ cost₁)
    (h₂ : Plan.Settles decls rule input plan memo o₂ memo₂ cost₂) :
    o₁ = o₂ ∧ memo₁ = memo₂ ∧ cost₁ = cost₂ := by
  match h₁ with
  | .done value =>
    cases h₂
    exact ⟨rfl, rfl, rfl⟩
  | .fail failure =>
    cases h₂
    exact ⟨rfl, rfl, rfl⟩
  | .note hrest =>
    cases h₂ with
    | note hrest' => exact hrest.deterministic hrest'
  | .failed hanswer =>
    cases h₂ with
    | failed hanswer' =>
      obtain ⟨heq, rfl, rfl⟩ := hanswer.deterministic hanswer'
      cases heq
      exact ⟨rfl, rfl, rfl⟩
    | answered hanswer' _ => cases (hanswer.deterministic hanswer').1
  | .answered hanswer hrest =>
    cases h₂ with
    | failed hanswer' => cases (hanswer.deterministic hanswer').1
    | answered hanswer' hrest' =>
      obtain ⟨heq, rfl, rfl⟩ := hanswer.deterministic hanswer'
      cases heq
      obtain ⟨rfl, rfl, rfl⟩ := hrest.deterministic hrest'
      exact ⟨rfl, rfl, rfl⟩
termination_by structural h₁

end

end Reshape
