import Reshape.Proofs.Reduction.Limits
import Reshape.Proofs.Rule.Validity
import Reshape.Proofs.Template.Calls

/-!
# What the counters say

Over a whole session the counters are exact (`Session.accounting_exact`), whether reductions succeed
or fail: every step is the first one in a frame or follows a term that was fed back, a term is fed
back only where an arm was taken, and an arm is taken at most once in a step, after it was tried.

A reduction overdraws the budget by one step at most, because it fails with that step; and once the
budget is overdrawn, no reduction gets further than its first step.

The balance is struck for evaluation of any kind (`Reduction.Tallies`). A run in its frame owes one
step, the first one, which is counted when the frame is entered. The notes of a step do not balance
by themselves: they are booked beforehand (`Session.noted`), and settled once the step is over.
-/

namespace Reshape

/-! ## Running out of steps -/

/-- Whether the steps ran out. -/
def Failure.outOfSteps (failure : Failure) : Bool :=
  match failure.cause with
  | .limitReached .steps _ => true
  | _ => false

def Outcome.outOfSteps {α : Type} : Outcome α → Bool
  | .ok _ => false
  | .error failure => failure.outOfSteps

namespace Failure

variable {failure : Failure}

theorem outOfSteps_of_hitLimit (h : failure.hitLimit = false) : failure.outOfSteps = false := by
  unfold outOfSteps
  split
  · rename_i heq
    rw [hitLimit, heq] at h
    cases h
  · rfl

theorem outOfSteps_leaving (failure : Failure) (rule : String) :
    (failure.leaving rule).outOfSteps = failure.outOfSteps := by
  rw [outOfSteps, cause_leaving, outOfSteps]

end Failure

theorem Outcome.outOfSteps_mapError_leaving {α : Type} (o : Outcome α) (rule : String) :
    Outcome.outOfSteps (o.mapError (·.leaving rule)) = o.outOfSteps := by
  cases o with
  | ok value => rfl
  | error failure => exact failure.outOfSteps_leaving rule

/-! ## The balance -/

/-- `c'` is `c` after `steps` steps, `owed` of which are not accounted for by a frame that was entered
or a term that was fed back. -/
structure Counters.Tally (owed steps maxDepth : Nat) (c c' : Counters) : Prop where
  balance : steps + c.entries + c.feedbacks = c'.entries + c'.feedbacks + owed
  entries : c.entries ≤ c'.entries
  feedbacks : c.feedbacks ≤ c'.feedbacks
  fedBack : c'.feedbacks + c.armsTaken ≤ c.feedbacks + c'.armsTaken
  taken : c'.armsTaken + c.armsTried ≤ c.armsTaken + c'.armsTried
  takenOnce : c'.armsTaken ≤ c.armsTaken + steps
  deepest : c'.deepest ≤ max c.deepest maxDepth

theorem Counters.Tally.refl (maxDepth : Nat) (c : Counters) : c.Tally 0 0 maxDepth c := by
  constructor <;> omega

/-- `s'` is `s` after `steps` steps that balance as far as there are counters. The budget lasts,
or else it is overdrawn by the last of them. -/
structure Session.Tallied (owed steps : Nat) (outOfSteps : Bool) (s s' : Session) : Prop where
  spends : s.Spends steps s'.memo s'
  lasts : outOfSteps = false → ∀ budget ∈ s.meter.budget, s'.meter.steps ≤ max s.meter.steps budget
  overdrawn : outOfSteps = true → ∃ budget ∈ s.meter.budget,
    budget < s'.meter.steps ∧ s'.meter.steps ≤ max s.meter.steps budget + 1
  counters : ∀ c ∈ s.meter.counters, ∃ c' ∈ s'.meter.counters, c.Tally owed steps s.frames.maxDepth c'

/-- The session with so many arms more that were tried and taken. -/
def Session.noted (s : Session) (tried taken : Nat) : Session :=
  { s with
    meter := s.meter.count fun c =>
      { c with armsTried := c.armsTried + tried, armsTaken := c.armsTaken + taken } }

namespace Session

variable {s s₁ s' : Session} {owed owed' steps steps' : Nat} {out : Bool}

theorem noted_noted (s : Session) (tried taken tried' taken' : Nat) :
    (s.noted tried taken).noted tried' taken' = s.noted (tried + tried') (taken + taken') := by
  obtain ⟨⟨budget, steps, counters⟩, frames, memo⟩ := s
  cases counters <;> simp [noted, Meter.count, Nat.add_assoc]

theorem noted_zero (s : Session) : s.noted 0 0 = s := by
  obtain ⟨⟨budget, steps, counters⟩, frames, memo⟩ := s
  cases counters <;> rfl

theorem counters_noted {tried taken : Nat} {c : Counters} (h : c ∈ s.meter.counters) :
    { c with armsTried := c.armsTried + tried, armsTaken := c.armsTaken + taken } ∈
      (s.noted tried taken).meter.counters :=
  Option.mem_map_of_mem _ h

namespace Tallied

/-- Where nothing is spent, what is counted need only balance. -/
theorem count {f : Counters → Counters}
    (h : ∀ c : Counters, c.Tally 0 0 s.frames.maxDepth (f c)) :
    s.Tallied 0 0 false { s with meter := s.meter.count f } :=
  ⟨⟨rfl, rfl, rfl, rfl⟩, fun _ _ _ => Nat.le_max_left _ _, nofun, fun c hc =>
    ⟨f c, Option.mem_map_of_mem f hc, h c⟩⟩

theorem refl (s : Session) : s.Tallied 0 0 false s :=
  ⟨⟨rfl, rfl, rfl, rfl⟩, fun _ _ _ => Nat.le_max_left _ _, nofun, fun c hc =>
    ⟨c, hc, .refl _ c⟩⟩

theorem trans (h : s.Tallied owed steps false s₁) (h' : s₁.Tallied owed' steps' out s') :
    s.Tallied (owed + owed') (steps + steps') out s' := by
  have hbudget := h.spends.budget
  have hfirst := h.lasts rfl
  refine ⟨h.spends.trans h'.spends, fun hout budget hmem => ?_, fun hout => ?_, fun c hc => ?_⟩
  · have hbefore := hfirst budget hmem
    have hafter := h'.lasts hout budget (by rwa [hbudget])
    omega
  · obtain ⟨budget, hmem, hover, hone⟩ := h'.overdrawn hout
    rw [hbudget] at hmem
    have hbefore := hfirst budget hmem
    exact ⟨budget, hmem, hover, by omega⟩
  · obtain ⟨c₁, hc₁, hleft⟩ := h.counters c hc
    obtain ⟨c', hc', hright⟩ := h'.counters c₁ hc₁
    rw [h.spends.frames] at hright
    obtain ⟨hbalance, hentries, hfeedbacks, hfedBack, htaken, honce, hdeepest⟩ := hleft
    obtain ⟨hbalance', hentries', hfeedbacks', hfedBack', htaken', honce', hdeepest'⟩ := hright
    exact ⟨c', hc', by omega, by omega, by omega, by omega, by omega, by omega, by omega⟩

/-- What was noted before makes no difference to what balances afterwards. -/
theorem noted (h : s.Tallied owed steps out s') (tried taken : Nat) :
    (s.noted tried taken).Tallied owed steps out (s'.noted tried taken) := by
  refine ⟨⟨h.spends.steps, h.spends.budget, h.spends.frames, rfl⟩, h.lasts, h.overdrawn, ?_⟩
  intro c hc
  obtain ⟨before, hbefore, rfl⟩ := Option.mem_map.1 hc
  obtain ⟨c', hc', hbalance, hentries, hfeedbacks, hfedBack, htaken, honce, hdeepest⟩ :=
    h.counters before hbefore
  exact ⟨_, counters_noted hc', hbalance, hentries, hfeedbacks, by dsimp only; omega,
    by dsimp only; omega, by dsimp only; omega, hdeepest⟩

end Tallied

end Session

namespace Reduction

open Eval

variable {α : Type} {runs : Rule → Term → Eval Session Term} {ask : Request → Eval Session Term}
  {owed : Nat}

/-- However evaluation ends, what it did balances, but for `owed` steps. -/
def Tallies (owed : Nat) (x : Eval Session α) : Prop :=
  ∀ (s : Session) (o : Outcome α) (s' : Session), x s = lift o s' →
    ∃ steps, s.Tallied owed steps o.outOfSteps s'

theorem Tallies.lift {o : Outcome α} (h : ∀ failure, o = .error failure → failure.outOfSteps = false) :
    Tallies 0 (Eval.lift o) := by
  intro s o' s' heq
  obtain ⟨rfl, rfl⟩ := lift_injective heq
  have hout : o.outOfSteps = false := by
    cases o with
    | ok value => rfl
    | error failure => exact h failure rfl
  rw [hout]
  exact ⟨0, .refl s⟩

theorem Tallies.bind {β : Type} {x : Eval Session α} {f : α → Eval Session β} (h : Tallies 0 x)
    (hf : ∀ value, Tallies 0 (f value)) : Tallies 0 (x >>= f) := by
  intro s o s' heq
  rcases bind_eq_lift heq with ⟨failure, hx, rfl⟩ | ⟨value, s₁, hx, hrest⟩
  · exact h s (.error failure) s' hx
  · obtain ⟨steps, hfirst⟩ := h s (.ok value) s₁ hx
    obtain ⟨steps', hsecond⟩ := hf value s₁ o s' hrest
    exact ⟨steps + steps', hfirst.trans hsecond⟩

theorem admitFeedback_outOfSteps {rule : Rule} {input next : Term} (failure : Failure)
    (h : rule.admitFeedback input next = .error failure) : failure.outOfSteps = false := by
  rw [Rule.admitFeedback_eq_error h]
  rfl

/-! ## Frames -/

theorem pushFrame_apply (rule : String) (s : Session) :
    pushFrame rule s = match s.frames.push rule with
      | .ok frames => .ok () { s with frames, meter := s.meter.entered frames.depth }
      | .error failure => .error (.failed failure) s := by
  have hpush : pushFrame rule s = (Eval.lift (s.frames.push rule) >>= fun frames =>
      modify (fun s => { s with frames }) >>= fun _ => tick (Meter.entered frames.depth)) s := rfl
  rw [hpush, bind_apply]
  cases s.frames.push rule <;> rfl

theorem push_outOfSteps {frames : Frames} {rule : String} {failure : Failure}
    (h : frames.push rule = .error failure) : failure.outOfSteps = false := by
  rw [Frames.push_eq_error h]
  rfl

theorem push_eq_ok {frames entered : Frames} {rule : String} (h : frames.push rule = .ok entered) :
    entered.maxDepth = frames.maxDepth ∧ entered.depth ≤ frames.maxDepth := by
  unfold Frames.push at h
  split at h
  · cases h
  · rename_i hroom
    cases h
    exact ⟨rfl, Nat.lt_of_not_le hroom⟩

/-- A frame that is entered makes up for the step that the run inside it owes. -/
theorem tallied_of_framed {s s₁ : Session} {entered : Frames} {rule : String} {steps : Nat} {out : Bool}
    (hpush : s.frames.push rule = .ok entered)
    (h : Session.Tallied 1 steps out
      { s with frames := entered, meter := s.meter.entered entered.depth } s₁) :
    s.Tallied 0 steps out { s₁ with frames := s₁.frames.pop } := by
  obtain ⟨hmax, hdepth⟩ := push_eq_ok hpush
  have hframes : s₁.frames.pop = s.frames := by
    rw [h.spends.frames]
    exact Frames.pop_of_push hpush
  refine ⟨⟨h.spends.steps, h.spends.budget, hframes, rfl⟩, h.lasts, h.overdrawn, fun c hc => ?_⟩
  obtain ⟨c', hc', hbalance, hentries, hfeedbacks, hfedBack, htaken, honce, hdeepest⟩ :=
    h.counters _ (Option.mem_map_of_mem _ hc)
  dsimp only at hbalance hentries hfeedbacks hfedBack htaken honce hdeepest
  rw [hmax] at hdeepest
  exact ⟨c', hc', by omega, by omega, by omega, by omega, by omega, by omega, by omega⟩

/-- A run that owes its first step balances in a frame of its own. -/
theorem enter_tallies {rule : Rule} {term : Term} (h : Tallies 1 (runs rule term)) :
    Tallies 0 (enter runs rule term) := by
  intro s o s' heq
  cases hknown : s.memo.bind (·.get? rule term) with
  | some known =>
    rw [enter_eq_recalled hknown] at heq
    obtain ⟨rfl, rfl⟩ := lift_injective (o := .ok known) heq
    exact ⟨0, .count fun c => by constructor <;> dsimp only <;> omega⟩
  | none =>
    rw [enter_eq_ran hknown] at heq
    have hbelow : Tallies 0 (Eval.leaving rule.name
        (pushFrame rule.name >>= fun _ => thenPop (runs rule term))) := by
      intro s o s₂ hleft
      obtain ⟨o₁, hx, rfl⟩ := leaving_eq_lift hleft
      rw [Outcome.outOfSteps_mapError_leaving]
      rw [bind_apply, pushFrame_apply] at hx
      cases hpush : s.frames.push rule.name with
      | error failure =>
        rw [hpush] at hx
        obtain ⟨rfl, rfl⟩ := lift_injective (o := .error failure) hx
        rw [Outcome.outOfSteps, push_outOfSteps hpush]
        exact ⟨0, .refl s⟩
      | ok entered =>
        rw [hpush] at hx
        obtain ⟨s₁, hrun, rfl⟩ := thenPop_eq_lift hx
        obtain ⟨steps, htallied⟩ := h _ o₁ s₁ hrun
        exact ⟨steps, tallied_of_framed hpush htallied⟩
    rcases bind_eq_lift heq with ⟨failure, hleft, rfl⟩ | ⟨output, s₂, hleft, hrest⟩
    · exact hbelow s (.error failure) s' hleft
    · obtain ⟨steps, hspends, hlasts, -, hcounters⟩ := hbelow s (.ok output) s₂ hleft
      obtain ⟨rfl, rfl⟩ := lift_injective (o := .ok output) hrest
      exact ⟨steps, ⟨hspends.steps, hspends.budget, hspends.frames, rfl⟩, hlasts, nofun, hcounters⟩

theorem answer_tallies (h : ∀ rule term, Tallies 1 (runs rule term)) (rule : Rule) (input : Term)
    (request : Request) : Tallies 0 (answer runs rule input request) := by
  cases request with
  | self next =>
    exact .bind (.lift admitFeedback_outOfSteps) fun _ => enter_tallies (h rule next)
  | call called term => exact enter_tallies (h called term)

/-! ## Steps -/

theorem observe_eq_noted (n : Note) (s : Session) :
    observe n s = .ok () (match n with
      | .armTried => s.noted 1 0
      | .armTaken => s.noted 0 1) := by
  cases n <;> rfl

theorem exec_callsAmong_tallies {rules : List Rule} {plan : Plan α} (hplan : plan.CallsAmong rules)
    (hask : ∀ request, Tallies 0 (ask request)) : Tallies 0 (plan.exec observe ask) := by
  induction hplan with
  | @done value _ => exact .lift (o := .ok value) nofun
  | @fail failure hfailure =>
    refine .lift (o := .error failure) fun other heq => ?_
    cases heq
    exact Failure.outOfSteps_of_hitLimit hfailure.limit
  | note hnote => cases hnote
  | @ask request _ _ _ ih => exact .bind (hask request) ih

/-- What a step does balances once its notes are booked: at most one arm is taken, of those that were
tried, and if the step goes on, one was. -/
def Session.TalliedStep (s : Session) (tried : Bool) (o : Outcome Step) (s' : Session) : Prop :=
  ∃ arms taken steps, taken ≤ 1 ∧ taken ≤ arms + tried.toNat ∧
    (∀ next, o = .ok (.again next) → taken = 1) ∧
    (s.noted arms taken).Tallied 0 steps o.outOfSteps s'

theorem exec_tries_tallies {rules : List Rule} {plan : Plan Step} {tried : Bool}
    (hplan : plan.Tries rules tried)
    (hask : ∀ request, Tallies 0 (ask request)) {s s' : Session} {o : Outcome Step}
    (h : plan.exec observe ask s = lift o s') : Session.TalliedStep s tried o s' := by
  induction hplan generalizing s with
  | done result =>
    obtain ⟨rfl, rfl⟩ := lift_injective (α := Step) (o := .ok (.done result)) h
    refine ⟨0, 0, 0, by omega, by omega, nofun, ?_⟩
    rw [Session.noted_zero]
    exact .refl s
  | @fail _ failure hfailure =>
    obtain ⟨rfl, rfl⟩ := lift_injective (o := .error failure) h
    refine ⟨0, 0, 0, by omega, by omega, nofun, ?_⟩
    rw [Session.noted_zero, Outcome.outOfSteps, Failure.outOfSteps_of_hitLimit hfailure.limit]
    exact .refl s
  | @tried tried rest _ ih =>
    rw [Plan.exec, bind_apply, observe_eq_noted] at h
    obtain ⟨arms, taken, steps, hone, hless, hagain, htallied⟩ := ih h
    rw [Session.noted_noted] at htallied
    refine ⟨1 + arms, 0 + taken, steps, by omega, ?_, fun next heq => ?_, htallied⟩
    · rw [Bool.toNat_true] at hless
      omega
    · rw [Nat.zero_add]
      exact hagain next heq
  | taken hrest =>
    rw [Plan.exec, bind_apply, observe_eq_noted] at h
    obtain ⟨steps, htallied⟩ := exec_callsAmong_tallies hrest hask _ o s' h
    exact ⟨0, 1, steps, Nat.le_refl 1, by rw [Bool.toNat_true], fun _ _ => rfl, htallied⟩
  | @ask _ request _ _ _ ih =>
    rw [Plan.exec] at h
    rcases bind_eq_lift h with ⟨failure, hanswer, rfl⟩ | ⟨term, s₁, hanswer, hrest⟩
    · obtain ⟨steps, htallied⟩ := hask request s (.error failure) s' hanswer
      refine ⟨0, 0, steps, by omega, by omega, nofun, ?_⟩
      rw [Session.noted_zero]
      exact htallied
    · obtain ⟨steps₁, htallied₁⟩ := hask request s (.ok term) s₁ hanswer
      obtain ⟨arms, taken, steps, hone, hless, hagain, htallied⟩ := ih term hrest
      have hboth := (htallied₁.noted arms taken).trans htallied
      exact ⟨arms, taken, steps₁ + steps, hone, hless, hagain, hboth⟩

theorem check_outOfSteps {meter : Meter} {failure : Failure} (h : meter.check = .error failure) :
    failure.outOfSteps = true := by
  obtain ⟨budget, rfl⟩ := Meter.check_eq_error h
  rfl

/-- A step that cannot be afforded overdraws the budget. -/
theorem tallied_of_overdrawn {s : Session} {failure : Failure}
    (h : s.meter.step.check = .error failure) :
    s.Tallied 1 1 true { s with meter := s.meter.step } := by
  obtain ⟨budget, hbudget, hover, -⟩ := check_eq_error h
  have hover : budget < s.meter.steps + 1 := hover
  refine ⟨⟨rfl, rfl, rfl, rfl⟩, nofun, fun _ => ⟨budget, hbudget, hover, ?_⟩, fun c hc => ⟨c, hc, ?_⟩⟩
  · show s.meter.steps + 1 ≤ _
    omega
  · constructor <;> omega

section

variable {s s₁ : Session} {arms taken steps : Nat} {out : Bool}

/-- A step that can be afforded, with what it asks for. -/
theorem tallied_of_step (hcheck : s.meter.step.check = .ok ()) (hone : taken ≤ 1) (hless : taken ≤ arms)
    (h : ({ s with meter := s.meter.step }.noted arms taken).Tallied 0 steps out s₁) :
    s.Tallied 1 (1 + steps) out s₁ := by
  have hsteps : s₁.meter.steps = s.meter.steps + 1 + steps := h.spends.steps
  have hleft := check_eq_ok hcheck
  refine ⟨⟨by omega, h.spends.budget, h.spends.frames, rfl⟩, fun hout budget hmem => ?_, fun hout => ?_,
    fun c hc => ?_⟩
  · have hfirst : s.meter.steps + 1 ≤ budget := hleft budget hmem
    have hafter : s₁.meter.steps ≤ max (s.meter.steps + 1) budget := h.lasts hout budget hmem
    omega
  · obtain ⟨budget, hmem, hover, hafter⟩ := h.overdrawn hout
    have hfirst : s.meter.steps + 1 ≤ budget := hleft budget hmem
    have hafter : s₁.meter.steps ≤ max (s.meter.steps + 1) budget + 1 := hafter
    exact ⟨budget, hmem, hover, by omega⟩
  · obtain ⟨c', hc', hbalance, hentries, hfeedbacks, hfedBack, htaken, honce, hdeepest⟩ :=
      h.counters _ (Session.counters_noted hc)
    dsimp only at hbalance hentries hfeedbacks hfedBack htaken honce hdeepest
    exact ⟨c', hc', by omega, by omega, by omega, by omega, by omega, by omega, hdeepest⟩

/-- A step that took an arm and goes on with a term that is fed back. -/
theorem tallied_of_fedBack (hcheck : s.meter.step.check = .ok ()) (hless : 1 ≤ arms)
    (h : ({ s with meter := s.meter.step }.noted arms 1).Tallied 0 steps false s₁) :
    s.Tallied 0 (1 + steps) false { s₁ with meter := s₁.meter.fedBack } := by
  have hstep := tallied_of_step hcheck (Nat.le_refl 1) hless h
  refine ⟨hstep.spends.count _, hstep.lasts, nofun, fun c hc => ?_⟩
  obtain ⟨c', hc', hbalance, hentries, hfeedbacks, hfedBack, htaken, honce, hdeepest⟩ :=
    h.counters _ (Session.counters_noted hc)
  refine ⟨_, Option.mem_map_of_mem _ hc', ?_⟩
  dsimp only at hbalance hentries hfeedbacks hfedBack htaken honce hdeepest
  constructor <;> dsimp only <;> first | omega | exact hdeepest

end

/-- A run owes its first step, and the others balance. -/
theorem run_tallies (decls : Declarations) (fuel : Nat) (rule : Rule) (input : Term) :
    Tallies 1 (run decls fuel rule input) := by
  induction fuel generalizing rule input with
  | zero => exact fun s o s' h => absurd h.symm (lift_ne_unfinished o s' s)
  | succ fuel ih =>
    intro s o s' h
    rw [run, bind_apply, spendStep_apply] at h
    cases hcheck : s.meter.step.check with
    | error failure =>
      rw [hcheck] at h
      obtain ⟨rfl, rfl⟩ := lift_injective (o := .error failure) h
      rw [Outcome.outOfSteps, check_outOfSteps hcheck]
      exact ⟨1, tallied_of_overdrawn hcheck⟩
    | ok _ =>
      rw [hcheck] at h
      have hanswers := answer_tallies ih rule input
      rcases bind_eq_lift h with ⟨failure, hexec, rfl⟩ | ⟨step, s₂, hexec, hrest⟩
      · obtain ⟨arms, taken, steps, hone, hless, -, htallied⟩ :=
          exec_tries_tallies (o := .error failure) (rule.step_tries decls input) hanswers hexec
        exact ⟨1 + steps, tallied_of_step hcheck hone hless htallied⟩
      · obtain ⟨arms, taken, steps, hone, hless, hagain, htallied⟩ :=
          exec_tries_tallies (o := .ok step) (rule.step_tries decls input) hanswers hexec
        cases step with
        | done result =>
          obtain ⟨rfl, rfl⟩ := lift_injective (o := .ok result) hrest
          exact ⟨1 + steps, tallied_of_step hcheck hone hless htallied⟩
        | again next =>
          cases hfeedback : rule.admitFeedback input next with
          | error failure =>
            rw [proceed_refused hfeedback] at hrest
            obtain ⟨rfl, rfl⟩ := lift_injective (o := .error failure) hrest
            rw [Outcome.outOfSteps, admitFeedback_outOfSteps failure hfeedback]
            exact ⟨1 + steps, tallied_of_step hcheck hone hless htallied⟩
          | ok _ =>
            rw [proceed_again hfeedback] at hrest
            obtain rfl := hagain next rfl
            obtain ⟨more, hmore⟩ := ih rule next _ o s' hrest
            have hboth := (tallied_of_fedBack hcheck hless htallied).trans hmore
            exact ⟨1 + steps + more, hboth⟩

end Reduction

open Reduction

theorem Rule.vet_outOfSteps {rule : Rule} {decls : Declarations} {term : Term} {failure : Failure}
    (h : rule.vet decls term = .error failure) : failure.outOfSteps = false := by
  have hcause : failure.hitLimit = false := by
    cases hacyclic : decls.needAcyclic term with
    | error rejected =>
      rw [vet_of_cyclic hacyclic] at h
      cases h
      obtain ⟨cycle, rfl⟩ := Declarations.needAcyclic_eq_error hacyclic
      rfl
    | ok _ =>
      rw [vet_of_acyclic hacyclic] at h
      have hrule := rule.validate_blamesRule failure h
      unfold Failure.hitLimit
      cases hkind : failure.cause <;> rw [hkind] at hrule <;> first | rfl | cases hrule
  exact Failure.outOfSteps_of_hitLimit hcause

/-- What a reduction does balances, however it ends. -/
theorem Rule.Ends.tallied {rule : Rule} {decls : Declarations} {term : Term} {s s' : Session}
    {o : Outcome Term} (hidle : s.Idle) (h : rule.Ends decls term s o s') :
    ∃ steps, s.Tallied 0 steps o.outOfSteps s' := by
  rcases h.vetted hidle with ⟨failure, hvet, rfl, rfl⟩ | ⟨-, fuel, henter⟩
  · rw [Outcome.outOfSteps, Rule.vet_outOfSteps hvet]
    exact ⟨0, .refl _⟩
  · exact enter_tallies (run_tallies decls fuel rule term) s o s' henter

namespace Session

/-- Reductions carried out one after another, each in the session that the one before it left, with
their outcomes. -/
inductive Reductions (start : Session) : List (Outcome Term) → Session → Prop where
  | none : Reductions start [] start
  | more {outcomes : List (Outcome Term)} {s s' : Session} {rule : Rule} {decls : Declarations}
      {term : Term} {o : Outcome Term} :
      Reductions start outcomes s → rule.Ends decls term s o s' →
      Reductions start (outcomes ++ [o]) s'

/-- How many frames were entered, if that was counted. -/
def entries (s : Session) : Nat :=
  match s.meter.counters with
  | some c => c.entries
  | none => 0

/-- The books of a session after some outcomes: it is idle, its counters balance with its steps, and
its budget is overdrawn once for each time that the steps ran out, at most. -/
structure Balanced (mode : Mode) (outcomes : List (Outcome Term)) (s : Session) : Prop where
  frames : s.frames = .empty mode.maxDepth
  budget : s.meter.budget = mode.budget?
  counters : ∃ c ∈ s.meter.counters, Counters.Tally 0 s.meter.steps mode.maxDepth {} c
  overdrawn : ∀ budget ∈ mode.budget?,
    s.meter.steps ≤ budget + outcomes.countP Outcome.outOfSteps ∧
      ((∃ o ∈ outcomes, o.outOfSteps = true) → budget < s.meter.steps)

section

variable {mode : Mode} {outcomes : List (Outcome Term)} {s s' : Session} {o : Outcome Term}

theorem Balanced.idle (h : s.Balanced mode outcomes) : s.Idle := by
  rw [Idle, h.frames]
  rfl

/-- One more reduction keeps the books. -/
theorem Balanced.more {rule : Rule} {decls : Declarations} {term : Term}
    (h : s.Balanced mode outcomes) (hends : rule.Ends decls term s o s') :
    s'.Balanced mode (outcomes ++ [o]) := by
  obtain ⟨steps, htallied⟩ := hends.tallied h.idle
  have hsteps := htallied.spends.steps
  refine ⟨htallied.spends.frames.trans h.frames, htallied.spends.budget.trans h.budget, ?_, ?_⟩
  · obtain ⟨c, hc, hbalance, hentries, hfeedbacks, hfedBack, htaken, honce, hdeepest⟩ := h.counters
    obtain ⟨c', hc', hbalance', hentries', hfeedbacks', hfedBack', htaken', honce', hdeepest'⟩ :=
      htallied.counters c hc
    rw [h.frames] at hdeepest'
    have hmax : (Frames.empty mode.maxDepth).maxDepth = mode.maxDepth := rfl
    dsimp only at hbalance hentries hfeedbacks hfedBack htaken honce hdeepest
    refine ⟨c', hc', ?_⟩
    constructor <;> dsimp only <;> omega
  · intro budget hbudget
    obtain ⟨hbefore, hover⟩ := h.overdrawn budget hbudget
    have hmem : budget ∈ s.meter.budget := by
      rw [h.budget]
      exact hbudget
    rw [List.countP_append, List.countP_singleton]
    cases hout : o.outOfSteps with
    | false =>
      have hlasts := htallied.lasts hout budget hmem
      rw [if_neg Bool.false_ne_true]
      refine ⟨by omega, ?_⟩
      rintro ⟨other, hother, hothers⟩
      rcases List.mem_append.1 hother with hother | hother
      · have := hover ⟨other, hother, hothers⟩
        omega
      · rw [List.mem_singleton.1 hother, hout] at hothers
        cases hothers
    | true =>
      obtain ⟨budget', hmem', hmore, hone⟩ := htallied.overdrawn hout
      obtain rfl : budget = budget' := Option.mem_unique hmem hmem'
      rw [if_pos rfl]
      exact ⟨by omega, fun _ => hmore⟩

theorem Reductions.balanced {memo : Option Memo}
    (h : (ofMode mode memo).withCounters.Reductions outcomes s) : s.Balanced mode outcomes := by
  induction h with
  | none =>
    refine ⟨rfl, rfl, ⟨{}, rfl, .refl mode.maxDepth {}⟩, fun budget _ => ⟨Nat.zero_le _, ?_⟩⟩
    rintro ⟨o, ho, -⟩
    cases ho
  | more _ hends ih => exact ih.more hends

/-- The counters of a session are exact after any reductions in it, with or without a memo, whether
they succeeded or failed. With a budget, each reduction that runs out of steps overdraws it by one at
most, and after such a reduction every other one that gets as far as entering a frame runs out of
steps as well. -/
theorem accounting_exact {memo : Option Memo}
    (h : (ofMode mode memo).withCounters.Reductions outcomes s) :
    s.Idle ∧
      (∃ c ∈ s.meter.counters, s.meter.steps = c.entries + c.feedbacks ∧ c.feedbacks ≤ c.armsTaken ∧
        c.armsTaken ≤ c.armsTried ∧ c.armsTaken ≤ s.meter.steps ∧ c.deepest ≤ mode.maxDepth) ∧
      ∀ budget ∈ mode.budget?,
        s.meter.steps ≤ budget + outcomes.countP Outcome.outOfSteps ∧
          ((∃ o ∈ outcomes, o.outOfSteps = true) →
            ∀ (rule : Rule) (decls : Declarations) (term : Term) (o : Outcome Term) (s' : Session),
              rule.Ends decls term s o s' → s.entries < s'.entries → o.outOfSteps = true) := by
  have hbalanced := h.balanced
  refine ⟨hbalanced.idle, ?_, fun budget hbudget =>
    ⟨(hbalanced.overdrawn budget hbudget).1, fun hout => ?_⟩⟩
  · obtain ⟨c, hc, hbalance, -, -, hfedBack, htaken, honce, hdeepest⟩ := hbalanced.counters
    dsimp only at hbalance hfedBack htaken honce hdeepest
    exact ⟨c, hc, by omega, by omega, by omega, by omega, by omega⟩
  · intro rule decls term o s' hends hentered
    obtain ⟨steps, htallied⟩ := hends.tallied hbalanced.idle
    obtain ⟨c, hc, -⟩ := hbalanced.counters
    obtain ⟨c', hc', hbalance, -, hfeedbacks, -⟩ := htallied.counters c hc
    have hover := (hbalanced.overdrawn budget hbudget).2 hout
    have hmore : c.entries < c'.entries := by
      rwa [entries, entries, Option.mem_def.1 hc, Option.mem_def.1 hc'] at hentered
    cases hstopped : o.outOfSteps with
    | true => rfl
    | false =>
      have hlasts := htallied.lasts hstopped budget (by rwa [hbalanced.budget])
      have hsteps := htallied.spends.steps
      omega

/-- Two steps are enough for one wrapping. The next wrapping runs out of steps, and after that not
even a text can be looked at. -/
theorem accounting_unwrapping :
    ∃ outcomes s, (ofMode (.custom 1 (some 2))).withCounters.Reductions outcomes s ∧
      outcomes.map Outcome.outOfSteps = [false, true] ∧ s.meter.steps ≤ 2 + 1 ∧
      ∃ o s', unwrapping.Ends ∅ (.text "x") s o s' ∧ s.entries < s'.entries ∧ o.outOfSteps = true := by
  have hfirst : unwrapping.Ends ∅ (.seq [.text "x"]) (ofMode (.custom 1 (some 2))).withCounters
      (.ok (.text "x")) ⟨⟨some 2, 2, some ⟨2, 1, 1, 1, 0, 1⟩⟩, .empty 1, none⟩ := ⟨2, rfl⟩
  have hsecond : unwrapping.Ends ∅ (.seq [.text "x"])
      ⟨⟨some 2, 2, some ⟨2, 1, 1, 1, 0, 1⟩⟩, .empty 1, none⟩
      (.error ⟨.limitReached .steps 2, ["unwrapping"]⟩)
      ⟨⟨some 2, 3, some ⟨2, 1, 1, 2, 0, 1⟩⟩, .empty 1, none⟩ := ⟨1, rfl⟩
  have hthird : unwrapping.Ends ∅ (.text "x")
      ⟨⟨some 2, 3, some ⟨2, 1, 1, 2, 0, 1⟩⟩, .empty 1, none⟩
      (.error ⟨.limitReached .steps 2, ["unwrapping"]⟩)
      ⟨⟨some 2, 4, some ⟨2, 1, 1, 3, 0, 1⟩⟩, .empty 1, none⟩ := ⟨1, rfl⟩
  have hreductions := (Reductions.none.more hfirst).more hsecond
  obtain ⟨-, -, hbudget⟩ := accounting_exact hreductions
  obtain ⟨hsteps, hafter⟩ := hbudget 2 rfl
  refine ⟨_, _, hreductions, rfl, hsteps, _, _, hthird, by decide, ?_⟩
  exact hafter ⟨_, List.mem_append_right _ List.mem_cons_self, rfl⟩ _ _ _ _ _ hthird (by decide)

end

end Session

end Reshape
