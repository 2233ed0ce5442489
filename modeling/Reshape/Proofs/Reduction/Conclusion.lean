import Reshape.Proofs.Reduction.Results

/-!
# What settles comes to an end

What a rule settles on, and at which cost, does not depend on limits. Under any limits, a reduction
of what settles comes to an end (`Rule.exists_ends_of_enters`): within the steps of its cost it has
the outcome, unless it reaches a limit before. So for a new session without a memo, what a rule comes
to and the cost of it decide when that is the outcome (`Rule.Enters.endsAs`), and for a rule that yields
a result, when there is a result and which one (`Rule.Yields.endsWithin`).
-/

namespace Reshape

namespace Reduction

open Eval

variable {α β : Type} {fuel : Nat} {memo memo₁ memo' : Option Memo} {o : Outcome α}
  {x : Eval Session α} {decls : Declarations} {runs : Rule → Term → Eval Session Term}

/-- From a session with the memo `memo`, evaluation comes to the outcome and leaves the memo as
`memo'`, or it reaches a limit. -/
def ComesTo (memo : Option Memo) (x : Eval Session α) (o : Outcome α) (memo' : Option Memo) : Prop :=
  ∀ s, s.memo = memo →
    ∃ (o' : Outcome α) (s' : Session), x s = lift o' s' ∧
      (o' = o ∧ s'.memo = memo' ∨ o'.hitLimit = true)

namespace ComesTo

theorem lift (o : Outcome α) : ComesTo memo (Eval.lift o) o memo :=
  fun s hs => ⟨o, s, rfl, .inl ⟨rfl, hs⟩⟩

theorem modify {f : Session → Session} (hf : ∀ s, s.memo = memo → (f s).memo = memo') :
    ComesTo memo (modify f : Eval Session PUnit) (.ok ()) memo' :=
  fun s hs => ⟨.ok (), f s, rfl, .inl ⟨rfl, hf s hs⟩⟩

theorem bind {f : α → Eval Session β} {value : α} {o : Outcome β} (h : ComesTo memo x (.ok value) memo₁)
    (hf : ComesTo memo₁ (f value) o memo') : ComesTo memo (x >>= f) o memo' := by
  intro s hs
  obtain ⟨o₁, s₁, hx, h₁⟩ := h s hs
  rw [bind_apply, hx]
  cases o₁ with
  | error failure =>
    refine ⟨.error failure, s₁, rfl, .inr ?_⟩
    rcases h₁ with ⟨heq, -⟩ | hlimit
    · cases heq
    · exact hlimit
  | ok value' =>
    rcases h₁ with ⟨heq, hs₁⟩ | hlimit
    · cases heq
      exact hf s₁ hs₁
    · cases hlimit

theorem bind_error {f : α → Eval Session β} {failure : Failure}
    (h : ComesTo memo x (.error failure) memo') : ComesTo memo (x >>= f) (.error failure) memo' := by
  intro s hs
  obtain ⟨o₁, s₁, hx, h₁⟩ := h s hs
  rw [bind_apply, hx]
  cases o₁ with
  | error failure' =>
    refine ⟨.error failure', s₁, rfl, h₁.imp_left fun h => ⟨?_, h.2⟩⟩
    cases h.1
    rfl
  | ok value => rcases h₁ with ⟨heq, -⟩ | hlimit <;> contradiction

theorem leaving (rule : String) (h : ComesTo memo x o memo') :
    ComesTo memo (Eval.leaving rule x) (o.mapError (·.leaving rule)) memo' := by
  intro s hs
  obtain ⟨o₁, s₁, hx, h₁⟩ := h s hs
  refine ⟨_, s₁, leaving_of_eq_lift hx, ?_⟩
  rcases h₁ with ⟨rfl, hs₁⟩ | hlimit
  · exact .inl ⟨rfl, hs₁⟩
  · cases o₁ with
    | ok value => cases hlimit
    | error failure => exact .inr ((failure.hitLimit_leaving rule).trans hlimit)

/-- There may be no room for the frame. -/
theorem inFrame (rule : String) (h : ComesTo memo x o memo') :
    ComesTo memo (pushFrame rule >>= fun _ => thenPop x) o memo' := by
  intro s hs
  rw [bind_apply]
  rcases pushFrame_cases rule s with ⟨-, s₁, hpush, hpushed⟩ | ⟨-, failure, hpush, hlimit⟩
  · obtain ⟨o₁, s₂, hx, h₂⟩ := h s₁ (hpushed.memo.trans hs)
    rw [hpush]
    exact ⟨o₁, _, thenPop_of_eq_lift hx, h₂⟩
  · rw [hpush]
    exact ⟨.error failure, s, rfl, .inr hlimit⟩

/-- There may be no step left. -/
theorem spend : ComesTo memo spendStep (.ok ()) memo := by
  intro s hs
  rcases spendStep_cases s with ⟨s₁, hspend, hspends, -⟩ | ⟨-, failure, s₁, hspend, hlimit⟩
  · exact ⟨.ok (), s₁, hspend, .inl ⟨rfl, hspends.memo.trans hs⟩⟩
  · exact ⟨.error failure, s₁, hspend, .inr hlimit⟩

theorem known (rule : Rule) (input : Term) :
    ComesTo memo (known? rule input) (.ok (memo.bind (·.get? rule input))) memo := by
  rintro s rfl
  exact ⟨.ok _, s, known?_apply rule input s, .inl ⟨rfl, rfl⟩⟩

theorem remember (rule : Rule) (input output : Term) :
    ComesTo memo (remember rule input output) (.ok ()) (memo.map (·.insert rule input output)) :=
  .modify fun s hs => by rw [← hs]

theorem observe (n : Note) : ComesTo memo (observe n) (.ok ()) memo := by
  cases n <;> exact .modify fun s hs => hs

end ComesTo

/-- What a rule settles on within the fuel, `runs` comes to. -/
def Concludes (decls : Declarations) (fuel : Nat) (runs : Rule → Term → Eval Session Term) : Prop :=
  ∀ {rule : Rule} {input : Term} {memo memo' : Option Memo} {o : Outcome Term} {cost : Cost},
    Rule.Settles decls rule input memo o memo' cost → cost.steps ≤ fuel →
    ComesTo memo (runs rule input) o memo'

theorem enter_comesTo (hruns : Concludes decls fuel runs) {rule : Rule} {input : Term}
    {o : Outcome Term} {cost : Cost} (h : Rule.Enters decls rule input memo o memo' cost)
    (hfuel : cost.steps ≤ fuel) : ComesTo memo (enter runs rule input) o memo' := by
  have hknown : ComesTo memo (known? rule input) _ memo := .known rule input
  cases h with
  | recalled hrecalled =>
    rw [hrecalled] at hknown
    exact hknown.bind (.bind (.modify fun s hs => hs) (.lift (.ok _)))
  | ran hnone hsettles =>
    rw [hnone] at hknown
    have hran := ((hruns hsettles hfuel).inFrame rule.name).leaving rule.name
    exact hknown.bind (hran.bind (.bind (.remember rule input _) (.lift (.ok _))))
  | failed hnone hsettles =>
    rw [hnone] at hknown
    have hran := ((hruns hsettles hfuel).inFrame rule.name).leaving rule.name
    exact hknown.bind hran.bind_error

theorem answer_comesTo (hruns : Concludes decls fuel runs) {rule : Rule} {input : Term}
    {request : Request} {o : Outcome Term} {cost : Cost}
    (h : Request.Settles decls rule input request memo o memo' cost) (hfuel : cost.steps ≤ fuel) :
    ComesTo memo (answer runs rule input request) o memo' := by
  cases h with
  | @refused _ _ _ _ failure hfeedback =>
    rw [answer, hfeedback]
    exact (ComesTo.lift (.error failure)).bind_error
  | self hfeedback henters =>
    rw [answer, hfeedback]
    exact .bind (.lift (.ok ())) (enter_comesTo hruns henters hfuel)
  | call henters => exact enter_comesTo hruns henters hfuel

theorem exec_comesTo (hruns : Concludes decls fuel runs) {rule : Rule} {input : Term} {plan : Plan α}
    {cost : Cost} (h : Plan.Settles decls rule input plan memo o memo' cost)
    (hfuel : cost.steps ≤ fuel) :
    ComesTo memo (plan.exec observe (answer runs rule input)) o memo' := by
  induction plan generalizing memo cost with
  | done value =>
    cases h
    exact .lift (.ok value)
  | fail failure =>
    cases h
    exact .lift (.error failure)
  | note n rest ih =>
    cases h with
    | note hrest => exact .bind (.observe n) (ih hrest hfuel)
  | ask request next ih =>
    cases h with
    | failed hanswer => exact (answer_comesTo hruns hanswer hfuel).bind_error
    | @answered _ _ _ _ _ _ _ _ _ _ cost cost' hanswer hrest =>
      have hsteps : cost.steps + cost'.steps ≤ fuel := hfuel
      exact (answer_comesTo hruns hanswer (by omega)).bind (ih _ hrest (by omega))

/-- A run of what settles comes to that on fuel for its steps, whatever the limits. -/
theorem run_concludes (decls : Declarations) (fuel : Nat) : Concludes decls fuel (run decls fuel) := by
  induction fuel with
  | zero =>
    intro rule input memo memo' o cost h hfuel
    have hpos := h.steps_pos
    omega
  | succ fuel ih =>
    intro rule input memo memo' o cost h hfuel
    cases h with
    | failed hplan =>
      exact .bind .spend (exec_comesTo ih hplan (Nat.le_of_succ_le_succ hfuel)).bind_error
    | done hplan =>
      exact .bind .spend ((exec_comesTo ih hplan (Nat.le_of_succ_le_succ hfuel)).bind (.lift (.ok _)))
    | @refused _ _ next _ _ failure _ hplan hfeedback =>
      have hproceed : ComesTo memo' (proceed (run decls fuel) rule input (.again next))
          (.error failure) memo' := by
        rw [proceed, hfeedback]
        exact (ComesTo.lift (.error failure)).bind_error
      exact .bind .spend ((exec_comesTo ih hplan (Nat.le_of_succ_le_succ hfuel)).bind hproceed)
    | @again _ _ next _ memo₁ _ _ cost cost' hplan hfeedback hrest =>
      have hsteps : cost.steps + 1 + cost'.steps ≤ fuel + 1 := hfuel
      have hproceed : ComesTo memo₁ (proceed (run decls fuel) rule input (.again next)) o memo' := by
        rw [proceed, hfeedback]
        exact .bind (.lift (.ok ())) (.bind (.modify fun _ hs => hs) (ih hrest (by omega)))
      exact .bind .spend ((exec_comesTo ih hplan (by omega)).bind hproceed)

end Reduction

/-! ## Reductions -/

section

variable {decls : Declarations} {rule : Rule} {term result : Term} {cost : Cost}

/-- Under any limits, a reduction of what passes and settles comes to an end. -/
theorem Rule.exists_ends_of_enters {memo : Option Memo} {o : Outcome Term} {s : Session}
    (hidle : s.Idle) (hvet : rule.vet decls term = .ok ())
    (h : rule.Enters decls term s.memo o memo cost) : ∃ o' s', rule.Ends decls term s o' s' := by
  have henters := Reduction.enter_comesTo (Reduction.run_concludes decls cost.steps) h (Nat.le_refl _)
  obtain ⟨o', s', henter, -⟩ := henters s rfl
  exact ⟨o', s', ends_of_enter hidle hvet henter⟩

/-- Reducing the term in a new session comes to the outcome if the mode allows for the cost, and
reaches a limit if it does not. -/
def Rule.EndsAs (decls : Declarations) (rule : Rule) (mode : Mode) (term : Term)
    (outcome : Outcome Term) (cost : Cost) : Prop :=
  ∃ o s', rule.Ends decls term (.ofMode mode) o s' ∧ (o = outcome ∨ o.hitLimit = true) ∧
    (o = outcome ↔ cost.depth ≤ mode.maxDepth ∧ ∀ budget ∈ mode.budget?, cost.steps ≤ budget)

/-- What a rule settles to is the outcome of reductions in new sessions that allow for the cost. -/
theorem Rule.Enters.endsAs {memo : Option Memo} {outcome : Outcome Term}
    (h : rule.Enters decls term none outcome memo cost) (houtcome : outcome.hitLimit = false)
    (hvet : rule.vet decls term = .ok ()) (mode : Mode) :
    rule.EndsAs decls mode term outcome cost := by
  have hidle : (Session.ofMode mode).Idle := rfl
  obtain ⟨o, s', hends⟩ := exists_ends_of_enters hidle hvet h
  refine ⟨o, s', hends, ?_⟩
  rw [← Cost.fits_ofMode]
  rcases hends.meets hidle hvet h with ⟨hfits, rfl⟩ | ⟨hexceeds, hlimit⟩
  · exact ⟨.inl rfl, iff_of_true rfl hfits⟩
  · refine ⟨.inr hlimit, iff_of_false ?_ hexceeds⟩
    rintro rfl
    cases houtcome.symm.trans hlimit

theorem Rule.EndsAs.eq_or_hitLimit {mode : Mode} {outcome o : Outcome Term} {s : Session}
    (h : rule.EndsAs decls mode term outcome cost) (hends : rule.Ends decls term (.ofMode mode) o s) :
    o = outcome ∨ o.hitLimit = true := by
  obtain ⟨o', s', hends', hor, -⟩ := h
  obtain ⟨rfl, -⟩ := hends.unique hends'
  exact hor

/-- Reducing the term in a new session comes to the result if the mode allows for the cost, and
reaches a limit if it does not. -/
def Rule.EndsWithin (decls : Declarations) (rule : Rule) (mode : Mode) (term result : Term)
    (cost : Cost) : Prop :=
  ∃ o s', rule.Ends decls term (.ofMode mode) o s' ∧ (o = .ok result ∨ o.hitLimit = true) ∧
    (o = .ok result ↔ cost.depth ≤ mode.maxDepth ∧ ∀ budget ∈ mode.budget?, cost.steps ≤ budget)

/-- What a rule yields is the result of reductions in new sessions that allow for the cost. -/
theorem Rule.Yields.endsWithin (h : rule.Yields decls term result cost)
    (hvet : rule.vet decls term = .ok ()) (mode : Mode) :
    rule.EndsWithin decls mode term result cost.nested :=
  h.enters.endsAs rfl hvet mode

namespace Rule.EndsWithin

variable {mode : Mode}

/-- A result is had only where the mode allows for the cost. -/
theorem eq_result {output : Term} {s : Session} (h : rule.EndsWithin decls mode term result cost)
    (hends : rule.Ends decls term (.ofMode mode) (.ok output) s) :
    output = result ∧ cost.depth ≤ mode.maxDepth ∧ ∀ budget ∈ mode.budget?, cost.steps ≤ budget := by
  obtain ⟨o, s', hends', houtcome, hiff⟩ := h
  obtain ⟨rfl, -⟩ := hends.unique hends'
  rcases houtcome with heq | hlimit
  · exact ⟨Except.ok.inj heq, hiff.1 heq⟩
  · cases hlimit

theorem ok_iff (h : rule.EndsWithin decls mode term result cost) :
    (∃ s', rule.Ends decls term (.ofMode mode) (.ok result) s') ↔
      cost.depth ≤ mode.maxDepth ∧ ∀ budget ∈ mode.budget?, cost.steps ≤ budget := by
  refine ⟨fun ⟨s', hends⟩ => (h.eq_result hends).2, fun hallows => ?_⟩
  obtain ⟨o, s', hends, -, hiff⟩ := h
  rw [hiff.2 hallows] at hends
  exact ⟨s', hends⟩

/-- Where the result is had, so is what the rule comes to from there at a cost that is no greater. -/
theorem ends_next {output next : Term} {s : Session} {cost' : Cost}
    (h : rule.EndsWithin decls mode term result cost)
    (hnext : rule.EndsWithin decls mode result next cost') (hdepth : cost'.depth ≤ cost.depth)
    (hsteps : cost'.steps ≤ cost.steps) (hends : rule.Ends decls term (.ofMode mode) (.ok output) s) :
    output = result ∧ ∃ s', rule.Ends decls result (.ofMode mode) (.ok next) s' := by
  obtain ⟨heq, hroom, hleft⟩ := h.eq_result hends
  exact ⟨heq, hnext.ok_iff.2 ⟨hdepth.trans hroom, fun budget hbudget =>
    hsteps.trans (hleft budget hbudget)⟩⟩

end Rule.EndsWithin

end

end Reshape
