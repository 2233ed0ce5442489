import Reshape.Proofs.Reduction.Fuel

/-!
# Conditions on evaluation

Evaluation respects conditions if it keeps one on the state however it ends, gives values that meet
another, and fails only as a third one says (`Eval.Respects`). Such conditions pass through all that
evaluation is put together from. If the one on the state looks at the memo only, they pass through
steps and frames as well.
-/

namespace Reshape

namespace Eval

variable {σ α β : Type}

/-- If the state is as it should be, it is so afterwards as well, however evaluation ends; a value and
a failure are as the conditions on them say. -/
def Respects (inv : σ → Prop) (fails : Failure → Prop) (gives : α → Prop) (x : Eval σ α) : Prop :=
  ∀ s, inv s →
    match x s with
    | .ok value s' => gives value ∧ inv s'
    | .error halt s' => (∀ failure, halt = .failed failure → fails failure) ∧ inv s'

namespace Respects

variable {inv : σ → Prop} {fails : Failure → Prop} {gives : α → Prop} {final : β → Prop}
  {x : Eval σ α}

theorem pure {value : α} (h : gives value) : (Pure.pure value : Eval σ α).Respects inv fails gives :=
  fun _ hs => ⟨h, hs⟩

theorem lift {o : Except Failure α} (hvalue : ∀ value, o = .ok value → gives value)
    (hfails : ∀ failure, o = .error failure → fails failure) :
    (Eval.lift o : Eval σ α).Respects inv fails gives := by
  intro s hs
  cases o with
  | ok value => exact ⟨hvalue value rfl, hs⟩
  | error failure =>
    refine ⟨?_, hs⟩
    rintro _ ⟨⟩
    exact hfails failure rfl

theorem get : (get : Eval σ σ).Respects inv fails inv := fun _ hs => ⟨hs, hs⟩

theorem modify {f : σ → σ} (hf : ∀ s, inv s → inv (f s)) :
    (modify f : Eval σ PUnit).Respects inv fails fun _ => True :=
  fun s hs => ⟨trivial, hf s hs⟩

theorem bind {f : α → Eval σ β} (h : x.Respects inv fails gives)
    (hf : ∀ value, gives value → (f value).Respects inv fails final) :
    (x >>= f).Respects inv fails final := by
  intro s hs
  have hx := h s hs
  rw [bind_apply]
  generalize x s = r at hx
  cases r with
  | ok value s₁ => exact hf value hx.1 s₁ hx.2
  | error halt s₁ => exact hx

theorem mono {gives' : α → Prop} {fails' : Failure → Prop} (h : x.Respects inv fails gives)
    (hgives : ∀ value, gives value → gives' value) (hfails : ∀ failure, fails failure → fails' failure) :
    x.Respects inv fails' gives' := by
  intro s hs
  have hx := h s hs
  generalize x s = r at hx
  cases r with
  | ok value s₁ => exact ⟨hgives value hx.1, hx.2⟩
  | error halt s₁ => exact ⟨fun failure heq => hfails _ (hx.1 failure heq), hx.2⟩

theorem leaving (rule : String) (hfails : ∀ failure, fails failure → fails (failure.leaving rule))
    (h : x.Respects inv fails gives) : (Eval.leaving rule x).Respects inv fails gives := by
  intro s hs
  have hx := h s hs
  unfold Eval.leaving
  generalize x s = r at hx
  match r with
  | .ok value s₁ => exact hx
  | .error (.failed failure) s₁ =>
    refine ⟨?_, hx.2⟩
    rintro _ ⟨⟩
    exact hfails failure (hx.1 failure rfl)
  | .error .unfinished s₁ => exact hx

end Respects

end Eval

namespace Reduction

variable {α : Type} {inv : Session → Prop} {fails : Failure → Prop} {gives : α → Prop}
  {x : Eval Session α}

/-- The condition looks at nothing but the memo. -/
def OfMemo (inv : Session → Prop) : Prop :=
  ∀ s s' : Session, s'.memo = s.memo → inv s → inv s'

section

variable (hinv : OfMemo inv)

include hinv

theorem thenPop_respects (h : x.Respects inv fails gives) : (thenPop x).Respects inv fails gives := by
  intro s hs
  have hx := h s hs
  unfold thenPop
  generalize x s = r at hx
  cases r with
  | ok value s₁ => exact ⟨hx.1, hinv s₁ _ rfl hx.2⟩
  | error halt s₁ => exact ⟨hx.1, hinv s₁ _ rfl hx.2⟩

theorem tick_respects (f : Meter → Meter) : (tick f).Respects inv fails fun _ => True :=
  .modify fun s hs => hinv s _ rfl hs

theorem observe_respects (n : Note) : (observe n).Respects inv fails fun _ => True := by
  cases n <;> exact tick_respects hinv _

theorem spendStep_respects (hfails : ∀ budget, fails ⟨.limitReached .steps budget, []⟩) :
    spendStep.Respects inv fails fun _ => True := by
  refine (tick_respects hinv _).bind fun _ _ => Eval.Respects.get.bind fun s _ => ?_
  refine .lift (fun _ _ => trivial) fun failure h => ?_
  obtain ⟨budget, rfl⟩ := Meter.check_eq_error h
  exact hfails budget

theorem pushFrame_respects (rule : String) (hfails : ∀ max, fails ⟨.limitReached .depth max, []⟩) :
    (pushFrame rule).Respects inv fails fun _ => True := by
  refine Eval.Respects.get.bind fun s _ => ?_
  have hpush : (Eval.lift (s.frames.push rule) : Eval Session Frames).Respects inv fails
      fun _ => True := by
    refine .lift (fun _ _ => trivial) fun failure h => ?_
    rw [Frames.push_eq_error h]
    exact hfails _
  refine hpush.bind fun frames _ => Eval.Respects.bind (.modify fun s hs => hinv s _ rfl hs) ?_
  exact fun _ _ => tick_respects hinv _

end

theorem admitFeedback_respects {rule : Rule} (input next : Term)
    (hfails : fails ⟨.notShrinking rule.name, []⟩) :
    (Eval.lift (rule.admitFeedback input next) : Eval Session Unit).Respects inv fails
      fun _ => True := by
  refine .lift (fun _ _ => trivial) fun failure h => ?_
  rw [Rule.admitFeedback_eq_error h]
  exact hfails

end Reduction

end Reshape
