import Reshape.Proofs.Reduction.Conclusion

/-!
# A frame for every step

Some rules go one frame deeper with every step, until a last step has a result, and put the results
together on the way back (`Rule.Descends`). The frames and the steps that such a reduction takes are
as many, so what limits it is the smaller of its limits, and the depth if they are equal
(`Session.limitAhead`). Whatever the limits are, it is known which of them ends the reduction
(`Rule.Descends.endsSharply`).
-/

namespace Reshape

open Reduction

/-! ## Plans that start with a request -/

/-- What the plan does first, apart from notes, is to make the request. -/
inductive Plan.AsksFirst {α : Type} : Plan α → Request → (Term → Plan α) → Prop where
  | ask {request : Request} {next : Term → Plan α} : AsksFirst (.ask request next) request next
  | note {n : Note} {plan : Plan α} {request : Request} {next : Term → Plan α} :
      AsksFirst plan request next → AsksFirst (.note n plan) request next

namespace Plan.AsksFirst

variable {α : Type} {plan : Plan α} {request : Request} {next : Term → Plan α}

section

variable {decls : Declarations} {rule : Rule} {input answer : Term} {cost₁ cost₂ : Cost}

/-- With an answer, the plan comes to what it comes to after the answer. -/
theorem settles {o : Outcome α} (h : plan.AsksFirst request next)
    (hanswer : request.Yields decls rule input answer cost₁)
    (hnext : (next answer).Settles decls rule input none o none cost₂) :
    plan.Settles decls rule input none o none (cost₁ + cost₂) := by
  induction h with
  | ask => exact .answered hanswer hnext
  | note _ ih => exact .note (ih hanswer hnext)

/-- Where the request fails, the plan fails. -/
theorem settles_error {failure : Failure} (h : plan.AsksFirst request next)
    (hanswer : request.Settles decls rule input none (.error failure) none cost₁) :
    plan.Settles decls rule input none (.error failure) none cost₁ := by
  induction h with
  | ask => exact .failed hanswer
  | note _ ih => exact .note (ih hanswer)

theorem yields {value : α} (h : plan.AsksFirst request next)
    (hanswer : request.Yields decls rule input answer cost₁)
    (hnext : (next answer).Yields decls rule input value cost₂) :
    plan.Yields decls rule input value (cost₁ + cost₂) :=
  h.settles hanswer hnext

end

/-- Before the request is made, at most the counters have changed. -/
theorem exec (h : plan.AsksFirst request next) (answer : Request → Eval Session Term) (s : Session) :
    ∃ counters, plan.exec observe answer s =
      (answer request >>= fun term => (next term).exec observe answer)
        { s with meter := { s.meter with counters } } := by
  induction h generalizing s with
  | ask => exact ⟨s.meter.counters, rfl⟩
  | note _ ih =>
    obtain ⟨counters, hexec⟩ := ih { s with meter := s.meter.count _ }
    refine ⟨counters, ?_⟩
    rw [Plan.exec, Eval.bind_apply, observe_apply]
    exact hexec

end Plan.AsksFirst

/-! ## Rules that descend -/

/-- The rule goes so many frames deeper from the input: each step feeds a smaller term back before it
has a result, and the step at the bottom has its result at once. -/
inductive Rule.Descends (decls : Declarations) (rule : Rule) : Nat → Term → Term → Prop where
  | bottom {input result : Term} :
      (rule.step decls input).Yields decls rule input (.done result) 0 →
      Descends decls rule 0 input result
  | deeper {levels : Nat} {input next answer result : Term} {rest : Term → Plan Step} :
      (rule.step decls input).AsksFirst (.self next) rest → rule.admitFeedback input next = .ok () →
      Descends decls rule levels next answer → rest answer = .done (.done result) →
      Descends decls rule (levels + 1) input result

/-- The limit that is reached first if frames and steps are taken one by one: that with less left,
and the depth if as much is left of both. -/
def Session.limitAhead (s : Session) : Cause :=
  match s.meter.budget with
  | some budget =>
    if s.frames.maxDepth - s.frames.depth ≤ budget - s.meter.steps then
      .limitReached .depth s.frames.maxDepth
    else .limitReached .steps budget
  | none => .limitReached .depth s.frames.maxDepth

section

variable {s s' : Session} {budget : Nat}

theorem Session.limitAhead_eq_depth
    (h : ∀ budget ∈ s.meter.budget, s.frames.maxDepth - s.frames.depth ≤ budget - s.meter.steps) :
    s.limitAhead = .limitReached .depth s.frames.maxDepth := by
  unfold limitAhead
  split
  · rename_i budget hbudget
    exact if_pos (h budget hbudget)
  · rfl

theorem Session.limitAhead_eq_steps (hbudget : s.meter.budget = some budget)
    (h : budget - s.meter.steps < s.frames.maxDepth - s.frames.depth) :
    s.limitAhead = .limitReached .steps budget := by
  rw [limitAhead, hbudget]
  exact if_neg (Nat.not_le_of_lt h)

/-- `s'` is one frame and one step further than `s`. -/
structure Session.Below (s s' : Session) : Prop where
  maxDepth : s'.frames.maxDepth = s.frames.maxDepth
  depth : s'.frames.depth = s.frames.depth + 1
  budget : s'.meter.budget = s.meter.budget
  steps : s'.meter.steps = s.meter.steps + 1
  memo : s'.memo = s.memo

/-- A frame and a step take as much from both limits. -/
theorem Session.Below.limitAhead (h : s.Below s') (hroom : s.frames.depth < s.frames.maxDepth)
    (hleft : ∀ budget ∈ s.meter.budget, s.meter.steps < budget) : s'.limitAhead = s.limitAhead := by
  rw [Session.limitAhead, Session.limitAhead, h.budget, h.maxDepth, h.depth, h.steps]
  cases hbudget : s.meter.budget with
  | none => rfl
  | some budget =>
    have hless := hleft budget hbudget
    have hsame : s.frames.maxDepth - (s.frames.depth + 1) ≤ budget - (s.meter.steps + 1) ↔
        s.frames.maxDepth - s.frames.depth ≤ budget - s.meter.steps := by omega
    simp only [hsame]

theorem Session.Below.fits {levels : Nat} (h : s.Below s') (hroom : s.frames.depth < s.frames.maxDepth)
    (hleft : ∀ budget ∈ s.meter.budget, s.meter.steps < budget)
    (hfits : (⟨levels, levels⟩ : Cost).Fits s') : (⟨levels + 1, levels + 1⟩ : Cost).Fits s := by
  refine ⟨?_, fun budget hbudget => ?_⟩
  · have hdepth : levels ≤ s'.frames.maxDepth - s'.frames.depth := hfits.depth
    rw [h.maxDepth, h.depth] at hdepth
    show levels + 1 ≤ _
    omega
  · have hsteps : levels ≤ budget - s'.meter.steps := hfits.steps budget (h.budget ▸ hbudget)
    have hless := hleft budget hbudget
    rw [h.steps] at hsteps
    show levels + 1 ≤ _
    omega

end

namespace Reduction

open Eval

variable {s s' : Session} {rule : Rule} {input : Term} {budget : Nat}
  {runs : Rule → Term → Eval Session Term}

theorem pushFrame_of_full (rule : String) (h : s.frames.maxDepth ≤ s.frames.depth) :
    pushFrame rule s = lift (.error ⟨.limitReached .depth s.frames.maxDepth, []⟩) s := by
  have hpush : pushFrame rule s = (lift (s.frames.push rule) >>= fun frames =>
      modify (fun s => { s with frames }) >>= fun _ => tick (Meter.entered frames.depth)) s := rfl
  rw [hpush, bind_apply, Frames.push, if_pos h]
  rfl

theorem spendStep_of_spent (hbudget : s.meter.budget = some budget) (h : budget ≤ s.meter.steps) :
    spendStep s =
      lift (.error ⟨.limitReached .steps budget, []⟩) { s with meter := s.meter.step } := by
  have hover : s.meter.step.overdrawn? = some budget := by
    have hless : budget < s.meter.step.steps := Nat.lt_succ_of_le h
    show s.meter.budget.filter _ = _
    rw [hbudget, Option.filter_some, decide_eq_true hless, if_pos rfl]
  rw [spendStep_apply, Meter.check, hover]

/-- What a run in a frame on top comes to, with the frame taken off again. -/
theorem inFrame_of_eq_lift {x : Eval Session Term} {o : Outcome Term} {s₁ s₂ : Session} {rule : String}
    (hpush : pushFrame rule s = .ok () s₁) (hx : x s₁ = lift o s₂) :
    (pushFrame rule >>= fun _ => thenPop x) s = lift o { s₂ with frames := s₂.frames.pop } := by
  rw [bind_apply, hpush]
  exact thenPop_of_eq_lift hx

/-- What fails in a frame, of itself or in frames of the same rule, leaves one entry on the trail. -/
theorem enter_of_failed {cause : Cause} {trail : List String} (hmemo : s.memo = none)
    (htrail : trail = [] ∨ trail = [rule.name])
    (h : (pushFrame rule.name >>= fun _ => thenPop (runs rule input)) s =
      lift (.error ⟨cause, trail⟩) s') :
    enter runs rule input s = lift (.error ⟨cause, [rule.name]⟩) s' := by
  have hleaving : (⟨cause, trail⟩ : Failure).leaving rule.name = ⟨cause, [rule.name]⟩ := by
    rcases htrail with rfl | rfl <;> simp [Failure.leaving]
  have hleft : Eval.leaving rule.name (pushFrame rule.name >>= fun _ => thenPop (runs rule input)) s =
      lift (.error ((⟨cause, trail⟩ : Failure).leaving rule.name)) s' := leaving_of_eq_lift h
  rw [hleaving] at hleft
  rw [enter_eq_ran (by rw [hmemo]; rfl), bind_apply, hleft]
  rfl

/-- A frame is put on top and a step is taken, as long as there is room and a step left. -/
theorem exists_below (rule : String) (hroom : s.frames.depth < s.frames.maxDepth)
    (hleft : ∀ budget ∈ s.meter.budget, s.meter.steps < budget) :
    ∃ s₁ s₂, pushFrame rule s = .ok () s₁ ∧ spendStep s₁ = .ok () s₂ ∧ s.Below s₂ := by
  rcases pushFrame_cases rule s with ⟨-, s₁, hpush, hpushed⟩ | ⟨hfull, -⟩
  · rcases spendStep_cases s₁ with ⟨s₂, hspend, hspends, -⟩ | ⟨hnone, -⟩
    · refine ⟨s₁, s₂, hpush, hspend, ?_, ?_, ?_, ?_, hspends.memo.trans hpushed.memo⟩
      · rw [hspends.frames, hpushed.maxDepth]
      · rw [hspends.frames, hpushed.depth]
      · rw [hspends.budget, hpushed.budget]
      · rw [hspends.steps, hpushed.steps]
    · refine absurd ⟨Nat.zero_le _, fun budget hbudget => ?_⟩ hnone
      have hless := hleft budget (hpushed.budget ▸ hbudget)
      rw [hpushed.steps]
      show 1 ≤ _
      omega
  · omega

/-- Where there is no room for a frame or no step left, the limit ahead is reached at once. -/
theorem enter_of_stopped {decls : Declarations} {fuel : Nat} (hmemo : s.memo = none)
    (h : ¬ (s.frames.depth < s.frames.maxDepth ∧ ∀ budget ∈ s.meter.budget, s.meter.steps < budget)) :
    ∃ s', enter (run decls (fuel + 1)) rule input s =
      lift (.error ⟨s.limitAhead, [rule.name]⟩) s' := by
  by_cases hroom : s.frames.depth < s.frames.maxDepth
  · obtain ⟨budget, hbudget, hspent⟩ : ∃ budget ∈ s.meter.budget, budget ≤ s.meter.steps := by
      simpa [hroom] using h
    rcases pushFrame_cases rule.name s with ⟨-, s₁, hpush, hpushed⟩ | ⟨hfull, -⟩
    · have hspend := spendStep_of_spent (hpushed.budget.trans hbudget) (hpushed.steps.symm ▸ hspent)
      have hrun : run decls (fuel + 1) rule input s₁ =
          lift (.error ⟨.limitReached .steps budget, []⟩) { s₁ with meter := s₁.meter.step } := by
        rw [run, bind_apply, hspend]
        rfl
      rw [Session.limitAhead_eq_steps hbudget (by omega)]
      exact ⟨_, enter_of_failed hmemo (.inl rfl) (inFrame_of_eq_lift hpush hrun)⟩
    · omega
  · have hfull := Nat.le_of_not_lt hroom
    refine ⟨s, enter_of_failed hmemo (.inl rfl) ?_⟩
    rw [bind_apply, pushFrame_of_full rule.name hfull,
      Session.limitAhead_eq_depth fun budget _ => by omega]
    rfl

/-- What fails where a step makes its first request fails the step. -/
theorem enter_of_asksFirst {decls : Declarations} {fuel : Nat} {next : Term} {cause : Cause}
    {rest : Term → Plan Step} (hmemo : s.memo = none) (hroom : s.frames.depth < s.frames.maxDepth)
    (hleft : ∀ budget ∈ s.meter.budget, s.meter.steps < budget)
    (hasks : (rule.step decls input).AsksFirst (.self next) rest)
    (hfeedback : rule.admitFeedback input next = .ok ())
    (hnext : ∀ s₁, s.Below s₁ →
      ∃ s₂, enter (run decls fuel) rule next s₁ = lift (.error ⟨cause, [rule.name]⟩) s₂) :
    ∃ s', enter (run decls (fuel + 1)) rule input s = lift (.error ⟨cause, [rule.name]⟩) s' := by
  obtain ⟨s₁, s₂, hpush, hspend, hbelow⟩ := exists_below rule.name hroom hleft
  obtain ⟨counters, hexec⟩ := hasks.exec (answer (run decls fuel) rule input) s₂
  obtain ⟨s₃, henter⟩ := hnext { s₂ with meter := { s₂.meter with counters } }
    ⟨hbelow.maxDepth, hbelow.depth, hbelow.budget, hbelow.steps, hbelow.memo⟩
  have hanswer : answer (run decls fuel) rule input (.self next)
      { s₂ with meter := { s₂.meter with counters } } = lift (.error ⟨cause, [rule.name]⟩) s₃ := by
    rw [answer, hfeedback]
    exact henter
  have hrun : run decls (fuel + 1) rule input s₁ = lift (.error ⟨cause, [rule.name]⟩) s₃ := by
    rw [run, bind_apply, hspend]
    show ((rule.step decls input).exec _ _ >>= proceed _ rule input) s₂ = _
    rw [bind_apply, hexec, bind_apply, hanswer]
    rfl
  exact ⟨_, enter_of_failed hmemo (.inr rfl) (inFrame_of_eq_lift hpush hrun)⟩

end Reduction

namespace Rule

variable {decls : Declarations} {rule : Rule} {input result : Term} {levels : Nat}

/-- Each level takes a frame and a step. -/
theorem Descends.yields (h : rule.Descends decls levels input result) :
    rule.Yields decls input result ⟨levels + 1, levels⟩ := by
  induction h with
  | bottom hdone => exact .of_done 0 hdone
  | @deeper levels input next answer result rest hasks hfeedback _ hrest ih =>
    have hanswer : (Request.self next).Yields decls rule input answer ⟨levels + 1, levels + 1⟩ :=
      Request.yields_self.2 ⟨hfeedback, _, ih, rfl⟩
    have hdone : (rest answer).Yields decls rule input (.done result) 0 := by
      rw [hrest, Plan.yields_done]
      exact ⟨rfl, rfl⟩
    exact .of_done _ (hasks.yields hanswer hdone)

/-- Without room for the frames, or without the steps, the limit ahead is reached. -/
theorem Descends.exhausts (h : rule.Descends decls levels input result) {fuel : Nat} {s : Session}
    (hfuel : levels < fuel) (hmemo : s.memo = none)
    (hfull : ¬ (⟨levels + 1, levels + 1⟩ : Cost).Fits s) :
    ∃ s', enter (run decls fuel) rule input s = Eval.lift (.error ⟨s.limitAhead, [rule.name]⟩) s' := by
  induction h generalizing fuel s with
  | bottom _ =>
    obtain ⟨fuel, rfl⟩ : ∃ more, fuel = more + 1 := ⟨fuel - 1, by omega⟩
    refine enter_of_stopped hmemo fun ⟨hroom, hleft⟩ => hfull ⟨?_, fun budget hbudget => ?_⟩
    · show 1 ≤ _
      omega
    · have hless := hleft budget hbudget
      show 1 ≤ _
      omega
  | @deeper levels input next _ _ _ hasks hfeedback _ _ ih =>
    obtain ⟨fuel, rfl⟩ : ∃ more, fuel = more + 1 := ⟨fuel - 1, by omega⟩
    by_cases hgoes : s.frames.depth < s.frames.maxDepth ∧
        ∀ budget ∈ s.meter.budget, s.meter.steps < budget
    · obtain ⟨hroom, hleft⟩ := hgoes
      -- A level lower there is a frame and a step less, so the same limit is ahead.
      refine enter_of_asksFirst hmemo hroom hleft hasks hfeedback fun s₁ hbelow => ?_
      rw [← hbelow.limitAhead hroom hleft]
      exact ih (Nat.lt_of_succ_lt_succ hfuel) (hbelow.memo.trans hmemo)
        fun hfits => hfull (hbelow.fits hroom hleft hfits)
    · exact enter_of_stopped hmemo hgoes

/-- Reducing the term in a new session comes to the result if the mode allows for so many frames and
as many steps. Otherwise the depth limit is reached if it is no greater than the budget, and the step
limit if it is. -/
structure EndsSharply (decls : Declarations) (rule : Rule) (mode : Mode) (term result : Term)
    (levels : Nat) : Prop where
  within : rule.EndsWithin decls mode term result ⟨levels, levels⟩
  depth : mode.maxDepth < levels → (∀ budget ∈ mode.budget?, mode.maxDepth ≤ budget) →
    ∃ s', rule.Ends decls term (.ofMode mode)
      (.error ⟨.limitReached .depth mode.maxDepth, [rule.name]⟩) s'
  steps : ∀ budget ∈ mode.budget?, budget < levels → budget < mode.maxDepth →
    ∃ s', rule.Ends decls term (.ofMode mode) (.error ⟨.limitReached .steps budget, [rule.name]⟩) s'

/-- That there is a result is decided by the cost; which limit is reached otherwise, by the descent. -/
theorem Descends.endsSharply (h : rule.Descends decls levels input result)
    (hvet : rule.vet decls input = .ok ()) (mode : Mode) :
    rule.EndsSharply decls mode input result (levels + 1) := by
  have hfits : (⟨levels + 1, levels + 1⟩ : Cost).Fits (.ofMode mode) ↔ _ := Cost.fits_ofMode
  have hexhausts (hfull : ¬ (⟨levels + 1, levels + 1⟩ : Cost).Fits (.ofMode mode)) :
      ∃ s', rule.Ends decls input (.ofMode mode)
        (.error ⟨(Session.ofMode mode).limitAhead, [rule.name]⟩) s' := by
    obtain ⟨s', henter⟩ := h.exhausts (Nat.lt_succ_self levels) rfl hfull
    exact ⟨s', ends_of_enter rfl hvet henter⟩
  refine ⟨h.yields.endsWithin hvet mode, fun hdeep hnarrow => ?_,
    fun budget hbudget hlong hnarrow => ?_⟩
  · have hahead : (Session.ofMode mode).limitAhead = .limitReached .depth mode.maxDepth :=
      Session.limitAhead_eq_depth hnarrow
    rw [← hahead]
    exact hexhausts fun hmet => Nat.not_le_of_lt hdeep (hfits.1 hmet).1
  · have hahead : (Session.ofMode mode).limitAhead = .limitReached .steps budget :=
      Session.limitAhead_eq_steps hbudget hnarrow
    rw [← hahead]
    exact hexhausts fun hmet => Nat.not_le_of_lt hlong ((hfits.1 hmet).2 budget hbudget)

end Rule

end Reshape
