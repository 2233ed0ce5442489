import Mathlib.Data.ENat.Basic
import Reshape.Proofs.Reduction.Determinism

/-!
# What limits change

The limits of a session turn results into exhaustion and change nothing else
(`Rule.limits_only_exhaust`): two sessions that reduce a term with a rule within
their limits come to the same outcome in as many steps, and a session with
limits no tighter than those that were enough is within them as well.
-/

namespace Reshape

open Reduction

variable {rule : Rule} {decls : Declarations} {term : Term} {s s₁ s₂ s' : Session} {o : Outcome Term}

/-- A session between two reductions. -/
def Session.Idle (s : Session) : Prop := s.frames.live = []

/-- The steps that the budget still allows. Without a budget there is no end of
them. -/
def Session.stepsLeft (s : Session) : ℕ∞ :=
  match s.meter.budget with
  | some budget => (budget - s.meter.steps : ℕ)
  | none => ⊤

theorem Rule.reduceWithin_of_idle (hidle : s.Idle) (fuel : Nat) :
    rule.reduceWithin fuel decls term s =
      (Eval.lift (rule.vet decls term) >>= fun _ => enter (run decls fuel) rule term) s := by
  have hempty : s.frames.isEmpty = true := List.isEmpty_iff.2 hidle
  show (if s.frames.isEmpty = true then _ else _ : Eval Session Term) s = _
  rw [if_pos hempty]

/-- A term is rejected only for a cycle. -/
theorem Declarations.needAcyclic_eq_error {failure : Failure}
    (h : decls.needAcyclic term = .error failure) : ∃ cycle, failure = ⟨.ofCycle cycle, []⟩ := by
  unfold Declarations.needAcyclic at h
  split at h <;> cases h
  exact ⟨_, rfl⟩

theorem Rule.vet_of_cyclic {failure : Failure} (h : decls.needAcyclic term = .error failure) :
    rule.vet decls term = .error failure := by
  rw [vet, h]
  rfl

theorem Rule.vet_of_acyclic (h : decls.needAcyclic term = .ok ()) :
    rule.vet decls term = rule.validate := by
  rw [vet, h]
  rfl

/-- What is vetted and rejected ends so at once. -/
theorem Rule.ends_of_vet {failure : Failure} (hidle : s.Idle)
    (hvet : rule.vet decls term = .error failure) : rule.Ends decls term s (.error failure) s := by
  refine ⟨0, ?_⟩
  rw [reduceWithin_of_idle hidle, Eval.bind_apply, hvet]
  rfl

/-- What passes ends as entering the rule does. -/
theorem Rule.ends_of_enter {fuel : Nat} (hidle : s.Idle) (hvet : rule.vet decls term = .ok ())
    (h : enter (run decls fuel) rule term s = Eval.lift o s') : rule.Ends decls term s o s' := by
  refine ⟨fuel, ?_⟩
  rw [reduceWithin_of_idle hidle, Eval.bind_apply, hvet]
  exact h

/-- What ends was rejected at once, or passed and ends as entering the rule does. -/
theorem Rule.Ends.vetted (hidle : s.Idle) (h : rule.Ends decls term s o s') :
    (∃ failure, rule.vet decls term = .error failure ∧ o = .error failure ∧ s' = s) ∨
      rule.vet decls term = .ok () ∧
        ∃ fuel, enter (run decls fuel) rule term s = Eval.lift o s' := by
  obtain ⟨fuel, h⟩ := h
  rw [reduceWithin_of_idle hidle, Eval.bind_apply] at h
  cases hvet : rule.vet decls term with
  | error failure =>
    rw [hvet] at h
    obtain ⟨rfl, rfl⟩ := Eval.lift_injective (o := .error failure) h
    exact .inl ⟨failure, rfl, rfl, rfl⟩
  | ok _ =>
    rw [hvet] at h
    exact .inr ⟨rfl, fuel, h⟩

/-- What passes ends as it settles, if the session can meet the cost. -/
theorem Rule.ends_of_enters {memo : Option Memo} {cost : Cost} (hidle : s.Idle)
    (hvet : rule.vet decls term = .ok ()) (h : rule.Enters decls term s.memo o memo cost)
    (hfits : cost.Fits s) : ∃ s', rule.Ends decls term s o s' ∧ s.Spends cost.steps memo s' := by
  obtain ⟨s', henter, hspends⟩ :=
    enter_complete (run_complete decls cost.steps) h (Nat.le_refl _) hfits
  exact ⟨s', ends_of_enter hidle hvet henter, hspends⟩

/-- What ends within the limits was rejected at once, or passed and settles so. -/
theorem Rule.Ends.settles (hidle : s.Idle) (h : rule.Ends decls term s o s')
    (ho : o.hitLimit = false) :
    (∃ failure, rule.vet decls term = .error failure ∧ o = .error failure ∧ s' = s) ∨
      rule.vet decls term = .ok () ∧ Accounts s s' (rule.Enters decls term · o) := by
  rcases h.vetted hidle with hrejected | ⟨hvet, fuel, henter⟩
  · exact .inl hrejected
  · exact .inr ⟨hvet, enter_sound (run_sound decls fuel) henter ho⟩

/-- A session with no tighter limits can meet the cost as well. -/
theorem Cost.Fits.mono {cost : Cost} (h : cost.Fits s₁) (hidle₁ : s₁.Idle) (hidle₂ : s₂.Idle)
    (hdepth : s₁.frames.maxDepth ≤ s₂.frames.maxDepth) (hsteps : s₁.stepsLeft ≤ s₂.stepsLeft) :
    cost.Fits s₂ := by
  have hzero₁ : s₁.frames.depth = 0 := by rw [s₁.frames.depth_eq, hidle₁, List.length_nil]
  have hzero₂ : s₂.frames.depth = 0 := by rw [s₂.frames.depth_eq, hidle₂, List.length_nil]
  refine ⟨?_, fun budget hbudget => ?_⟩
  · have := h.depth
    omega
  · rw [Session.stepsLeft, Session.stepsLeft, Option.mem_def.1 hbudget] at hsteps
    cases hbudget₁ : s₁.meter.budget with
    | none =>
      rw [hbudget₁] at hsteps
      exact absurd (top_le_iff.1 hsteps) (ENat.natCast_ne_top _)
    | some budget₁ =>
      rw [hbudget₁] at hsteps
      exact Nat.le_trans (h.steps budget₁ hbudget₁) (ENat.natCast_le_natCast.1 hsteps)

/-- A new session without a budget. -/
def Session.unbudgeted (maxDepth : Nat) (memo : Option Memo) : Session :=
  { meter := { budget := none }, frames := .empty maxDepth, memo }

/-- Applying a rule to a term has one outcome at most, after as many steps. -/
theorem Rule.Enters.unique {memo memo₁ memo₂ : Option Memo} {o₁ o₂ : Outcome Term}
    {cost₁ cost₂ : Cost} (h₁ : rule.Enters decls term memo o₁ memo₁ cost₁)
    (h₂ : rule.Enters decls term memo o₂ memo₂ cost₂) :
    o₁ = o₂ ∧ memo₁ = memo₂ ∧ cost₁.steps = cost₂.steps := by
  obtain ⟨rfl, rfl, rfl⟩ := h₁.deterministic h₂
  exact ⟨rfl, rfl, rfl⟩

/-- A reduction of what passes comes to what it settles to if the session can meet the cost, and
reaches a limit if it cannot. -/
theorem Rule.Ends.meets {memo : Option Memo} {o₁ : Outcome Term} {cost : Cost} (hidle : s.Idle)
    (h : rule.Ends decls term s o s') (hvet : rule.vet decls term = .ok ())
    (henters : rule.Enters decls term s.memo o₁ memo cost) :
    (cost.Fits s ∧ o = o₁) ∨ (¬ cost.Fits s ∧ o.hitLimit = true) := by
  by_cases hfits : cost.Fits s
  · obtain ⟨s₁, hends, -⟩ := ends_of_enters hidle hvet henters hfits
    exact .inl ⟨hfits, (h.unique hends).1⟩
  · cases ho : o.hitLimit with
    | true => exact .inr ⟨hfits, rfl⟩
    | false =>
      rcases h.settles hidle ho with ⟨failure, hrejected, -⟩ | ⟨-, cost', henters', hfits', -⟩
      · cases hvet.symm.trans hrejected
      · obtain ⟨-, -, rfl⟩ := henters.deterministic henters'
        exact absurd hfits' hfits

/-- What a new session can meet is what its mode allows. -/
theorem Cost.fits_ofMode {cost : Cost} {mode : Mode} {memo : Option Memo} :
    cost.Fits (.ofMode mode memo) ↔
      cost.depth ≤ mode.maxDepth ∧ ∀ budget ∈ mode.budget?, cost.steps ≤ budget :=
  ⟨fun h => ⟨h.depth, h.steps⟩, fun h => ⟨h.1, h.2⟩⟩

/-- Limits only ever turn an outcome into exhaustion. Two reductions of a term
with a rule, from idle sessions with the same memo or without one, that both stay
within their limits have the same outcome after as many steps; and if one stays
within its limits, so does the other if its limits are no tighter. -/
theorem Rule.limits_only_exhaust (rule : Rule) (decls : Declarations) (term : Term)
    (s₁ s₂ : Session) (hidle₁ : s₁.Idle) (hidle₂ : s₂.Idle) (hmemo : s₁.memo = s₂.memo) :
    (∀ o₁ s₁' o₂ s₂', rule.Ends decls term s₁ o₁ s₁' → rule.Ends decls term s₂ o₂ s₂' →
      o₁.hitLimit = false → o₂.hitLimit = false →
      o₁ = o₂ ∧ s₁'.meter.steps - s₁.meter.steps = s₂'.meter.steps - s₂.meter.steps) ∧
    (∀ o₁ s₁', rule.Ends decls term s₁ o₁ s₁' → o₁.hitLimit = false →
      s₁.frames.maxDepth ≤ s₂.frames.maxDepth → s₁.stepsLeft ≤ s₂.stepsLeft →
      ∃ o₂ s₂', rule.Ends decls term s₂ o₂ s₂' ∧ o₂.hitLimit = false) := by
  refine ⟨fun o₁ s₁' o₂ s₂' h₁ h₂ ho₁ ho₂ => ?_, fun o₁ s₁' h₁ ho₁ hdepth hsteps => ?_⟩
  · rcases h₁.settles hidle₁ ho₁ with ⟨failure, hvet, rfl, rfl⟩ | ⟨hvet, cost₁, henters₁, -, hspends₁⟩
    · obtain ⟨rfl, rfl⟩ := h₂.unique (ends_of_vet hidle₂ hvet)
      exact ⟨rfl, by rw [Nat.sub_self, Nat.sub_self]⟩
    · rcases h₂.settles hidle₂ ho₂ with ⟨failure, hvet₂, -⟩ | ⟨-, cost₂, henters₂, -, hspends₂⟩
      · cases hvet.symm.trans hvet₂
      · rw [← hmemo] at henters₂
        obtain ⟨rfl, -, hcost⟩ := henters₁.unique henters₂
        rw [hspends₁.steps, hspends₂.steps]
        exact ⟨rfl, by omega⟩
  · rcases h₁.settles hidle₁ ho₁ with ⟨failure, hvet, rfl, -⟩ | ⟨hvet, cost, henters, hfits, -⟩
    · exact ⟨.error failure, s₂, ends_of_vet hidle₂ hvet, ho₁⟩
    · rw [hmemo] at henters
      obtain ⟨s₂', h₂, -⟩ := ends_of_enters hidle₂ hvet henters
        (hfits.mono hidle₁ hidle₂ hdepth hsteps)
      exact ⟨o₁, s₂', h₂, ho₁⟩

/-- Takes wrappings of one element off a term. -/
def unwrapping : Rule where
  name := "unwrapping"
  arms := [{ pattern := .tuple [.bind "inner"], body := .reduce (.capture "inner") }]
  recursion := .shrinking

/-- One frame and three steps are enough for two wrappings, so the host's limits
are enough for them, even after a thousand steps. -/
theorem unwrapping_ends_for_host :
    ∃ o s', unwrapping.Ends ∅ (.seq [.seq [.text "x"]])
      { Session.ofMode .host with meter := { Meter.ofMode .host with steps := 1000 } } o s' ∧
        o.hitLimit = false := by
  have hlimits := unwrapping.limits_only_exhaust ∅ (.seq [.seq [.text "x"]])
    (.ofMode (.custom 1 (some 3)))
    { Session.ofMode .host with meter := { Meter.ofMode .host with steps := 1000 } } rfl rfl rfl
  exact hlimits.2 (.ok (.text "x")) _ ⟨3, rfl⟩ rfl (by decide) (by decide)

end Reshape
