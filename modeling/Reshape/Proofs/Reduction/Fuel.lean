import Reshape.Reduction.Session

/-!
# Fuel

A reduction runs on fuel so that it is defined for rules that never come to an
end; what it gives does not depend on the fuel. More fuel changes nothing but a
reduction that was cut off (`run_refines`), and with a budget the fuel that
`Rule.reduce` takes lasts until the budget is overdrawn
(`Rule.reduce_ne_unfinished`).

So `Rule.Ends` is what is meant by the end of a reduction: the outcome that it
has on some fuel. There is one at most (`Rule.Ends.unique`), and it is the one
of `Rule.reduce` whenever there is a budget (`Rule.ends_iff_reduce`).
-/

namespace Reshape

/-- A result, or the failure in its place. -/
abbrev Outcome (α : Type) := Except Failure α

namespace Eval

variable {σ α β : Type}

theorem bind_apply (x : Eval σ α) (f : α → Eval σ β) (s : σ) :
    (x >>= f) s = match x s with
      | .ok value s' => f value s'
      | .error halt s' => .error halt s' := by
  cases h : x s <;> simp only [bind, EStateM.bind, h]

theorem lift_ok (value : α) (s : σ) : lift (.ok value) s = .ok value s := rfl

theorem lift_error (failure : Failure) (s : σ) :
    (lift (.error failure) : Eval σ α) s = .error (.failed failure) s := rfl

theorem lift_injective {o o' : Outcome α} {s s' : σ} (h : lift o s = lift o' s') :
    o = o' ∧ s = s' := by
  cases o <;> cases o' <;> cases h <;> exact ⟨rfl, rfl⟩

theorem lift_ne_unfinished (o : Outcome α) (s s' : σ) : lift o s ≠ .error .unfinished s' := by
  cases o <;> simp [lift_ok, lift_error]

/-- The outcome of evaluation that was not cut off. -/
theorem exists_lift_of_ne_unfinished {x : Eval σ α} {s : σ} (h : ∀ s', x s ≠ .error .unfinished s') :
    ∃ o s', x s = lift o s' := by
  match hx : x s with
  | .ok value s' => exact ⟨.ok value, s', rfl⟩
  | .error (.failed failure) s' => exact ⟨.error failure, s', rfl⟩
  | .error .unfinished s' => exact absurd hx (h s')

/-- What evaluation that ends with an outcome did: it failed in its first part,
or its second part ended with that outcome. -/
theorem bind_eq_lift {x : Eval σ α} {f : α → Eval σ β} {s s' : σ} {o : Outcome β}
    (h : (x >>= f) s = lift o s') :
    (∃ failure, x s = lift (.error failure) s' ∧ o = .error failure) ∨
      ∃ value s₁, x s = .ok value s₁ ∧ f value s₁ = lift o s' := by
  rw [bind_apply] at h
  match hx : x s with
  | .ok value s₁ =>
    rw [hx] at h
    exact .inr ⟨value, s₁, rfl, h⟩
  | .error (.failed failure) s₁ =>
    rw [hx] at h
    obtain ⟨rfl, rfl⟩ := lift_injective (o := .error failure) h
    exact .inl ⟨failure, rfl, rfl⟩
  | .error .unfinished s₁ =>
    rw [hx] at h
    exact absurd h.symm (lift_ne_unfinished o s' s₁)

/-! ## More fuel -/

/-- `y` gives what `x` gives, unless `x` is cut off. -/
def Refines (x y : Eval σ α) : Prop :=
  ∀ s, (∃ s', x s = .error .unfinished s') ∨ y s = x s

namespace Refines

theorem refl (x : Eval σ α) : x.Refines x := fun _ => .inr rfl

theorem bind {x y : Eval σ α} {f g : α → Eval σ β} (h : x.Refines y)
    (hf : ∀ value, (f value).Refines (g value)) : (x >>= f).Refines (y >>= g) := by
  intro s
  rw [bind_apply, bind_apply]
  rcases h s with ⟨s', hs⟩ | hs
  · exact .inl ⟨s', by rw [hs]⟩
  · rw [hs]
    cases x s with
    | ok value s' => exact hf value s'
    | error halt s' => exact .inr rfl

theorem leaving {x y : Eval σ α} (rule : String) (h : x.Refines y) :
    (Eval.leaving rule x).Refines (Eval.leaving rule y) := by
  intro s
  rcases h s with ⟨s', hs⟩ | hs
  · exact .inl ⟨s', by simp only [Eval.leaving, hs]⟩
  · exact .inr (by simp only [Eval.leaving, hs])

end Refines

end Eval

namespace Reduction

open Eval

variable {α : Type} {runs runs' : Rule → Term → Eval Session Term}

theorem thenPop_refines {x y : Eval Session α} (h : x.Refines y) :
    (thenPop x).Refines (thenPop y) := by
  intro s
  rcases h s with ⟨s', hs⟩ | hs
  · exact .inl ⟨{ s' with frames := s'.frames.pop }, by simp only [thenPop, hs]⟩
  · exact .inr (by simp only [thenPop, hs])

theorem enter_refines (h : ∀ rule term, (runs rule term).Refines (runs' rule term)) (rule : Rule)
    (term : Term) : (enter runs rule term).Refines (enter runs' rule term) := by
  refine .bind (.refl _) fun known => ?_
  cases known with
  | some known => exact .refl _
  | none =>
    refine .bind ?_ fun output => .refl _
    exact .leaving _ (.bind (.refl _) fun _ => thenPop_refines (h rule term))

theorem answer_refines (h : ∀ rule term, (runs rule term).Refines (runs' rule term)) (rule : Rule)
    (input : Term) (request : Request) :
    (answer runs rule input request).Refines (answer runs' rule input request) := by
  cases request with
  | self next => exact .bind (.refl _) fun _ => enter_refines h rule next
  | call called term => exact enter_refines h called term

theorem exec_refines {ask ask' : Request → Eval Session Term}
    (h : ∀ request, (ask request).Refines (ask' request)) (plan : Plan α) :
    (plan.exec observe ask).Refines (plan.exec observe ask') := by
  induction plan with
  | done value => exact .refl _
  | fail failure => exact .refl _
  | note n rest ih => exact .bind (.refl _) fun _ => ih
  | ask request next ih => exact .bind (h request) ih

theorem proceed_refines (h : ∀ rule term, (runs rule term).Refines (runs' rule term)) (rule : Rule)
    (input : Term) (step : Step) :
    (proceed runs rule input step).Refines (proceed runs' rule input step) := by
  cases step with
  | done result => exact .refl _
  | again next => exact .bind (.refl _) fun _ => .bind (.refl _) fun _ => h rule next

/-- More fuel changes nothing but a run that was cut off. -/
theorem run_refines (decls : Declarations) {fuel fuel' : Nat} (h : fuel ≤ fuel') (rule : Rule)
    (input : Term) : (run decls fuel rule input).Refines (run decls fuel' rule input) := by
  induction fuel generalizing fuel' rule input with
  | zero => exact fun s => .inl ⟨s, rfl⟩
  | succ fuel ih =>
    obtain ⟨more, rfl⟩ : ∃ more, fuel' = more + 1 := ⟨fuel' - 1, by omega⟩
    have hruns := ih (show fuel ≤ more by omega)
    exact .bind (.refl _) fun _ => .bind (exec_refines (answer_refines hruns rule input) _)
      (proceed_refines hruns rule input)

end Reduction

theorem Rule.reduceWithin_refines (rule : Rule) (decls : Declarations) (term : Term)
    {fuel fuel' : Nat} (h : fuel ≤ fuel') :
    (rule.reduceWithin fuel decls term).Refines (rule.reduceWithin fuel' decls term) := by
  have henter := Reduction.enter_refines (Reduction.run_refines decls h) rule term
  refine .bind (.refl _) fun session => ?_
  split
  · exact .bind (.refl _) fun _ => henter
  · exact henter

/-! ## Enough fuel -/

namespace Reduction

open Eval

variable {α β : Type} {fuel : Nat} {runs : Rule → Term → Eval Session Term}

/-- Where `fuel` more steps overdraw the budget, evaluation is not cut off. The
budget stays, and no step is given back. -/
def Lasts (fuel : Nat) (x : Eval Session α) : Prop :=
  ∀ s budget, s.meter.budget = some budget → budget < s.meter.steps + fuel →
    ∃ o s', x s = lift o s' ∧ s'.meter.budget = some budget ∧ s.meter.steps ≤ s'.meter.steps

theorem Lasts.lift (o : Outcome α) : Lasts fuel (Eval.lift o) :=
  fun s _ hbudget _ => ⟨o, s, rfl, hbudget, Nat.le_refl _⟩

theorem Lasts.bind {x : Eval Session α} {f : α → Eval Session β} (h : Lasts fuel x)
    (hf : ∀ value, Lasts fuel (f value)) : Lasts fuel (x >>= f) := by
  intro s budget hbudget hfuel
  obtain ⟨o, s₁, hx, hbudget₁, hsteps₁⟩ := h s budget hbudget hfuel
  rw [bind_apply, hx]
  cases o with
  | error failure => exact ⟨.error failure, s₁, rfl, hbudget₁, hsteps₁⟩
  | ok value =>
    obtain ⟨o, s', hf', hbudget', hsteps'⟩ := hf value s₁ budget hbudget₁ (by omega)
    exact ⟨o, s', hf', hbudget', by omega⟩

theorem Lasts.modify {f : Session → Session}
    (hf : ∀ s, (f s).meter.budget = s.meter.budget ∧ s.meter.steps ≤ (f s).meter.steps) :
    Lasts fuel (modify f : Eval Session PUnit) := fun s _ hbudget _ =>
  ⟨.ok (), f s, rfl, (hf s).1.trans hbudget, (hf s).2⟩

theorem Lasts.leaving {x : Eval Session α} (rule : String) (h : Lasts fuel x) :
    Lasts fuel (Eval.leaving rule x) := by
  intro s budget hbudget hfuel
  obtain ⟨o, s', hx, hkept⟩ := h s budget hbudget hfuel
  cases o with
  | ok value => exact ⟨.ok value, s', by simp only [Eval.leaving, hx, lift_ok], hkept⟩
  | error failure =>
    exact ⟨.error (failure.leaving rule), s', by simp only [Eval.leaving, hx, lift_error], hkept⟩

theorem Lasts.thenPop {x : Eval Session α} (h : Lasts fuel x) :
    Lasts fuel (Reduction.thenPop x) := by
  intro s budget hbudget hfuel
  obtain ⟨o, s', hx, hkept⟩ := h s budget hbudget hfuel
  refine ⟨o, { s' with frames := s'.frames.pop }, ?_, hkept⟩
  cases o <;> simp only [Reduction.thenPop, hx, lift_ok, lift_error]

theorem Lasts.get : Lasts fuel (get : Eval Session Session) :=
  fun s _ hbudget _ => ⟨.ok s, s, rfl, hbudget, Nat.le_refl _⟩

theorem enter_lasts (h : ∀ rule term, Lasts fuel (runs rule term)) (rule : Rule) (term : Term) :
    Lasts fuel (enter runs rule term) := by
  have hpush : Lasts fuel (pushFrame rule.name) :=
    .bind .get fun s => .bind (.lift _) fun frames =>
      .bind (.modify fun s => ⟨rfl, Nat.le_refl _⟩) fun _ => .modify fun s => ⟨rfl, Nat.le_refl _⟩
  refine .bind (.bind .get fun s => .lift (.ok _)) fun known => ?_
  cases known with
  | some known => exact .bind (.modify fun s => ⟨rfl, Nat.le_refl _⟩) fun _ => .lift (.ok known)
  | none =>
    refine .bind (.leaving _ (.bind hpush fun _ => .thenPop (h rule term))) fun output => ?_
    exact .bind (.modify fun s => ⟨rfl, Nat.le_refl _⟩) fun _ => .lift (.ok output)

theorem answer_lasts (h : ∀ rule term, Lasts fuel (runs rule term)) (rule : Rule) (input : Term)
    (request : Request) : Lasts fuel (answer runs rule input request) := by
  cases request with
  | self next => exact .bind (.lift _) fun _ => enter_lasts h rule next
  | call called term => exact enter_lasts h called term

theorem exec_lasts {ask : Request → Eval Session Term} (h : ∀ request, Lasts fuel (ask request))
    (plan : Plan α) : Lasts fuel (plan.exec observe ask) := by
  have hobserve : ∀ n, Lasts fuel (observe n) := fun n => by
    cases n <;> exact .modify fun s => ⟨rfl, Nat.le_refl _⟩
  induction plan with
  | done value => exact .lift (.ok value)
  | fail failure => exact .lift (.error failure)
  | note n rest ih => exact .bind (hobserve n) fun _ => ih
  | ask request next ih => exact .bind (h request) ih

theorem check_eq_ok {meter : Meter} (h : meter.check = .ok ()) :
    ∀ budget ∈ meter.budget, meter.steps ≤ budget := by
  intro budget hbudget
  refine Nat.le_of_not_lt fun hover => ?_
  have hoverdrawn : meter.overdrawn? = some budget := by
    rw [Meter.overdrawn?, Option.mem_def.1 hbudget, Option.filter_some, decide_eq_true hover, if_pos rfl]
  rw [Meter.check, hoverdrawn] at h
  cases h

theorem check_eq_error {meter : Meter} {failure : Failure} (h : meter.check = .error failure) :
    ∃ budget ∈ meter.budget, budget < meter.steps ∧ failure.hitLimit = true := by
  cases hbudget : meter.budget with
  | none => simp [Meter.check, Meter.overdrawn?, hbudget] at h
  | some budget =>
    rw [Meter.check, Meter.overdrawn?, hbudget, Option.filter_some] at h
    by_cases hover : budget < meter.steps
    · rw [decide_eq_true hover, if_pos rfl] at h
      cases h
      exact ⟨budget, rfl, hover, rfl⟩
    · rw [decide_eq_false hover, if_neg Bool.false_ne_true] at h
      cases h

theorem spendStep_apply (s : Session) :
    spendStep s = lift s.meter.step.check { s with meter := s.meter.step } := rfl

/-- A step that is taken out of the budget brings its end nearer. -/
theorem spendStep_lasts {f : Unit → Eval Session α} (h : fuel ≠ 0 → Lasts fuel (f ())) :
    Lasts (fuel + 1) (spendStep >>= f) := by
  intro s budget hbudget hfuel
  rw [bind_apply, spendStep_apply]
  cases hcheck : s.meter.step.check with
  | error failure => exact ⟨.error failure, _, rfl, hbudget, Nat.le_succ _⟩
  | ok _ =>
    have hleft : s.meter.steps + 1 ≤ budget := check_eq_ok hcheck budget hbudget
    obtain ⟨o, s', hf, hbudget', hsteps⟩ :=
      h (by omega) { s with meter := s.meter.step } budget hbudget (by show _ < _ + 1 + _; omega)
    exact ⟨o, s', hf, hbudget', Nat.le_of_succ_le hsteps⟩

theorem proceed_lasts (h : ∀ rule term, Lasts fuel (runs rule term)) (rule : Rule) (input : Term)
    (step : Step) : Lasts fuel (proceed runs rule input step) := by
  cases step with
  | done result => exact .lift (.ok result)
  | again next =>
    exact .bind (.lift _) fun _ => .bind (.modify fun s => ⟨rfl, Nat.le_refl _⟩) fun _ => h rule next

/-- A run comes to an end if its budget is overdrawn before its fuel is used up:
every step takes one unit of both. -/
theorem run_lasts (decls : Declarations) {fuel : Nat} (hfuel : fuel ≠ 0) (rule : Rule)
    (input : Term) : Lasts fuel (run decls fuel rule input) := by
  induction fuel generalizing rule input with
  | zero => exact absurd rfl hfuel
  | succ fuel ih =>
    refine spendStep_lasts fun hrest => ?_
    have hruns := ih hrest
    exact .bind (exec_lasts (answer_lasts hruns rule input) _) (proceed_lasts hruns rule input)

end Reduction

/-- With a budget, a reduction has an outcome on the fuel that it takes. -/
theorem Rule.exists_reduce_eq_lift (rule : Rule) (decls : Declarations) (term : Term)
    {session : Session} {budget : Nat} (hbudget : session.meter.budget = some budget) :
    ∃ o session', rule.reduce decls term session = Eval.lift o session' := by
  have hfuel : session.fuel ≠ 0 ∧ budget < session.meter.steps + session.fuel := by
    simp only [Session.fuel, hbudget]
    omega
  have henter := Reduction.enter_lasts (Reduction.run_lasts decls hfuel.1) rule term
  have hlasts : Reduction.Lasts session.fuel (rule.reduceWithin session.fuel decls term) := by
    refine .bind .get fun s => ?_
    split
    · exact .bind (.lift _) fun _ => henter
    · exact henter
  obtain ⟨o, session', h, -⟩ := hlasts session budget hbudget hfuel.2
  exact ⟨o, session', h⟩

/-! ## The end of a reduction -/

/-- Reducing the term from `session` comes to an end: on some fuel it has this
outcome, and leaves the session as `session'`. -/
def Rule.Ends (rule : Rule) (decls : Declarations) (term : Term) (session : Session)
    (o : Outcome Term) (session' : Session) : Prop :=
  ∃ fuel, rule.reduceWithin fuel decls term session = Eval.lift o session'

section

variable {rule : Rule} {decls : Declarations} {term : Term} {session session₁ session₂ : Session}
  {o o₁ o₂ : Outcome Term}

/-- More fuel does not change an outcome. -/
theorem Rule.reduceWithin_eq_lift_of_le {fuel fuel' : Nat} (h : fuel ≤ fuel')
    (heq : rule.reduceWithin fuel decls term session = Eval.lift o session₁) :
    rule.reduceWithin fuel' decls term session = Eval.lift o session₁ := by
  rcases rule.reduceWithin_refines decls term h session with ⟨s', hcut⟩ | hsame
  · exact absurd (heq.symm.trans hcut) (Eval.lift_ne_unfinished _ _ _)
  · exact hsame.trans heq

theorem Rule.Ends.unique (h₁ : rule.Ends decls term session o₁ session₁)
    (h₂ : rule.Ends decls term session o₂ session₂) : o₁ = o₂ ∧ session₁ = session₂ := by
  obtain ⟨fuel₁, h₁⟩ := h₁
  obtain ⟨fuel₂, h₂⟩ := h₂
  have h₁' := reduceWithin_eq_lift_of_le (Nat.le_max_left fuel₁ fuel₂) h₁
  have h₂' := reduceWithin_eq_lift_of_le (Nat.le_max_right fuel₁ fuel₂) h₂
  exact Eval.lift_injective (h₁'.symm.trans h₂')

/-- An outcome of `reduce` is the end of the reduction. -/
theorem Rule.ends_of_reduce (h : rule.reduce decls term session = Eval.lift o session₁) :
    rule.Ends decls term session o session₁ :=
  ⟨session.fuel, h⟩

/-- With a budget, the end of the reduction is what `reduce` gives. -/
theorem Rule.ends_iff_reduce {budget : Nat} (hbudget : session.meter.budget = some budget) :
    rule.Ends decls term session o session₁ ↔
      rule.reduce decls term session = Eval.lift o session₁ := by
  refine ⟨fun h => ?_, ends_of_reduce⟩
  obtain ⟨o', session', heq⟩ := rule.exists_reduce_eq_lift decls term hbudget
  obtain ⟨rfl, rfl⟩ := h.unique (ends_of_reduce heq)
  exact heq

end

end Reshape
