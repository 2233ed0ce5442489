import Reshape.Proofs.Reduction.Conclusion

/-!
# Loops

A step of a rule may give, without a request, a term to go on with (`Rule.GoesOn`). Steps of that kind
stay in one frame, so a run that goes on through some terms takes a step for each of them and then what
the last one takes (`Rule.settles_of_goesOn`). What counts up to a number takes two steps more than the
number (`Rule.yields_of_counting`).

Where every term goes on to another one, there is no end (`Rule.Endless`): nothing settles there, and
whatever a reduction comes to, it comes to it by reaching a limit (`Rule.Endless.hitLimit`). A budget
is reached in the end (`Rule.Endless.exists_ends`).
-/

namespace Reshape

variable {decls : Declarations} {rule : Rule}

/-- A step on the term goes on with the next one, without a request. -/
structure Rule.GoesOn (decls : Declarations) (rule : Rule) (input next : Term) : Prop where
  step : (rule.step decls input).Yields decls rule input (.again next) 0
  admits : rule.admitFeedback input next = .ok ()

/-- What comes of the next term comes of the one that goes on with it, after a step more. -/
theorem Rule.GoesOn.settles {input next : Term} {o : Outcome Term} {cost : Cost}
    (h : rule.GoesOn decls input next) (hnext : rule.Settles decls next none o none cost) :
    rule.Settles decls input none o none cost.step := by
  rw [Cost.step_eq]
  exact .again h.step h.admits hnext

/-- A run through terms that go on comes to what the last one comes to, after a step for each. -/
theorem Rule.settles_of_goesOn {state : Nat → Term} {o : Outcome Term} {cost : Cost} (n : Nat)
    (hloop : ∀ k < n, rule.GoesOn decls (state k) (state (k + 1)))
    (hlast : rule.Settles decls (state n) none o none cost) :
    rule.Settles decls (state 0) none o none ⟨cost.steps + n, cost.depth⟩ := by
  induction n generalizing state with
  | zero => exact hlast
  | succ n ih =>
    have hrest : rule.Settles decls (state 1) none o none ⟨cost.steps + n, cost.depth⟩ :=
      @ih (fun k => state (k + 1)) (fun k hk => hloop (k + 1) (by omega)) hlast
    exact (hloop 0 (Nat.succ_pos n)).settles hrest

/-- A run that starts, goes on so many times and is done then takes two steps more than that. -/
theorem Rule.yields_of_counting {state : Nat → Term} {result : Term} {n : Nat}
    (hstart : rule.GoesOn decls (state 0) (state 1))
    (hnext : ∀ k < n, rule.GoesOn decls (state (k + 1)) (state (k + 2)))
    (hreached : rule.Yields decls (state (n + 1)) result ⟨1, 0⟩) :
    rule.Yields decls (state 0) result ⟨n + 2, 0⟩ := by
  have hloop : ∀ k < n + 1, rule.GoesOn decls (state k) (state (k + 1)) := by
    intro k hk
    cases k with
    | zero => exact hstart
    | succ k => exact hnext k (by omega)
  have hruns := Rule.settles_of_goesOn _ hloop hreached
  rwa [Nat.add_comm 1] at hruns

/-! ## Loops without an end -/

/-- Every term of the set goes on with another one of it. -/
def Rule.Endless (decls : Declarations) (rule : Rule) (P : Term → Prop) : Prop :=
  ∀ input, P input → ∃ next, rule.GoesOn decls input next ∧ P next

namespace Rule.Endless

variable {P : Term → Prop} {input : Term}

theorem not_settles (h : rule.Endless decls P) (hinput : P input) {o : Outcome Term}
    {memo : Option Memo} {cost : Cost} : ¬ rule.Settles decls input none o memo cost := by
  -- By the steps of the run: it has to take the one that the term goes on with, and then fewer.
  induction hsteps : cost.steps using Nat.strongRecOn generalizing input cost with
  | ind steps ih =>
    obtain ⟨next, hgoes, hnext⟩ := h input hinput
    intro hsettles
    cases hsettles with
    | failed hplan => cases (hplan.deterministic hgoes.step).1
    | done hplan => cases (hplan.deterministic hgoes.step).1
    | refused hplan hrefused =>
      cases (hplan.deterministic hgoes.step).1
      cases hrefused.symm.trans hgoes.admits
    | again hplan _ hrest =>
      obtain ⟨heq, rfl, -⟩ := hplan.deterministic hgoes.step
      cases heq
      refine ih _ ?_ hnext rfl hrest
      rw [← hsteps, Cost.add_steps, Cost.step_steps]
      omega

theorem not_enters (h : rule.Endless decls P) (hinput : P input) {o : Outcome Term}
    {memo : Option Memo} {cost : Cost} : ¬ rule.Enters decls input none o memo cost := by
  intro henters
  cases henters with
  | recalled hknown => cases hknown
  | ran _ hruns => exact h.not_settles hinput hruns
  | failed _ hruns => exact h.not_settles hinput hruns

/-- A reduction that comes to an end has reached a limit. -/
theorem hitLimit (h : rule.Endless decls P) (hinput : P input) {s s' : Session} {o : Outcome Term}
    (hidle : s.Idle) (hmemo : s.memo = none) (hvet : rule.vet decls input = .ok ())
    (hends : rule.Ends decls input s o s') : o.hitLimit = true := by
  by_contra hlimit
  rcases hends.settles hidle (Bool.eq_false_iff.2 hlimit) with
    ⟨failure, hrejected, -⟩ | ⟨-, cost, henters, -⟩
  · cases hvet.symm.trans hrejected
  · rw [hmemo] at henters
    exact h.not_enters hinput henters

/-- With a budget, a limit is reached. -/
theorem exists_ends (h : rule.Endless decls P) (hinput : P input)
    (hvet : rule.vet decls input = .ok ()) {mode : Mode} {budget : Nat}
    (hbudget : mode.budget? = some budget) :
    ∃ o s', rule.Ends decls input (.ofMode mode) o s' ∧ o.hitLimit = true := by
  have hsession : (Session.ofMode mode).meter.budget = some budget := hbudget
  obtain ⟨o, s', hreduce⟩ := rule.exists_reduce_eq_lift decls input hsession
  have hends := ends_of_reduce hreduce
  have hidle : (Session.ofMode mode).Idle := rfl
  exact ⟨o, s', hends, h.hitLimit hinput hidle rfl hvet hends⟩

end Rule.Endless

end Reshape
