import Mathlib.Algebra.Group.Defs
import Reshape.Proofs.Reduction.Fuel

/-!
# Reductions without limits

What a rule makes of a term does not depend on the limits of the reduction.
`Rule.Settles` says, by rules that mention no limit, what the outcome of a run
is, what becomes of the memo, and what the run costs: its steps, and how many
frames it puts on top of its own.

The limits only decide whether the cost can be met (`Cost.Fits`). A run that
neither reaches a limit nor is cut off settles, at a cost that fits
(`Reduction.run_sound`); and a run whose cost fits ends as it settles
(`Reduction.run_complete`).
-/

namespace Reshape

/-- Steps, one after another, and the greatest number of frames on top of each
other. -/
@[ext]
structure Cost where
  steps : Nat
  depth : Nat
  deriving DecidableEq, Repr

namespace Cost

instance : Zero Cost := ⟨⟨0, 0⟩⟩

instance : Add Cost := ⟨fun a b => ⟨a.steps + b.steps, max a.depth b.depth⟩⟩

@[simp] theorem zero_steps : (0 : Cost).steps = 0 := rfl
@[simp] theorem zero_depth : (0 : Cost).depth = 0 := rfl
@[simp] theorem add_steps (a b : Cost) : (a + b).steps = a.steps + b.steps := rfl
@[simp] theorem add_depth (a b : Cost) : (a + b).depth = max a.depth b.depth := rfl

theorem mk_add_mk {a b c d steps depth : Nat} (hsteps : a + c = steps) (hdepth : max b d = depth) :
    (⟨a, b⟩ + ⟨c, d⟩ : Cost) = ⟨steps, depth⟩ := by
  rw [← hsteps, ← hdepth]
  rfl

instance : AddCommMonoid Cost where
  add_assoc a b c := by ext <;> simp only [add_steps, add_depth] <;> omega
  zero_add a := by ext <;> simp
  add_zero a := by ext <;> simp
  add_comm a b := by ext <;> simp only [add_steps, add_depth] <;> omega
  nsmul := nsmulRec

/-- The cost of what a step asks for, with the step itself. -/
def step (cost : Cost) : Cost := ⟨cost.steps + 1, cost.depth⟩

/-- The cost of a run, with the frame it is in. -/
def nested (cost : Cost) : Cost := ⟨cost.steps, cost.depth + 1⟩

@[simp] theorem step_steps (cost : Cost) : cost.step.steps = cost.steps + 1 := rfl
@[simp] theorem step_depth (cost : Cost) : cost.step.depth = cost.depth := rfl
@[simp] theorem nested_steps (cost : Cost) : cost.nested.steps = cost.steps := rfl
@[simp] theorem nested_depth (cost : Cost) : cost.nested.depth = cost.depth + 1 := rfl

theorem step_eq (cost : Cost) : cost.step = (0 : Cost).step + cost := by
  ext <;> simp [Nat.add_comm]

theorem step_add (a b : Cost) : (a + b).step = a.step + b := by
  rw [step_eq, step_eq a, add_assoc]

end Cost

mutual

/-- A run of a rule in its frame: step after step, until one gives a result. -/
inductive Rule.Settles (decls : Declarations) :
    Rule → Term → Option Memo → Outcome Term → Option Memo → Cost → Prop where
  | failed {rule : Rule} {input : Term} {memo memo' : Option Memo} {failure : Failure} {cost : Cost} :
      Plan.Settles decls rule input (rule.step decls input) memo (.error failure) memo' cost →
      Rule.Settles decls rule input memo (.error failure) memo' cost.step
  | done {rule : Rule} {input result : Term} {memo memo' : Option Memo} {cost : Cost} :
      Plan.Settles decls rule input (rule.step decls input) memo (.ok (.done result)) memo' cost →
      Rule.Settles decls rule input memo (.ok result) memo' cost.step
  | refused {rule : Rule} {input next : Term} {memo memo' : Option Memo} {failure : Failure}
      {cost : Cost} :
      Plan.Settles decls rule input (rule.step decls input) memo (.ok (.again next)) memo' cost →
      rule.admitFeedback input next = .error failure →
      Rule.Settles decls rule input memo (.error failure) memo' cost.step
  | again {rule : Rule} {input next : Term} {memo memo₁ memo' : Option Memo} {o : Outcome Term}
      {cost cost' : Cost} :
      Plan.Settles decls rule input (rule.step decls input) memo (.ok (.again next)) memo₁ cost →
      rule.admitFeedback input next = .ok () →
      Rule.Settles decls rule next memo₁ o memo' cost' →
      Rule.Settles decls rule input memo o memo' (cost.step + cost')

/-- A rule applied in a frame of its own, or its result known from the memo. -/
inductive Rule.Enters (decls : Declarations) :
    Rule → Term → Option Memo → Outcome Term → Option Memo → Cost → Prop where
  | recalled {rule : Rule} {input known : Term} {memo : Option Memo} :
      memo.bind (·.get? rule input) = some known →
      Rule.Enters decls rule input memo (.ok known) memo 0
  | ran {rule : Rule} {input result : Term} {memo memo' : Option Memo} {cost : Cost} :
      memo.bind (·.get? rule input) = none →
      Rule.Settles decls rule input memo (.ok result) memo' cost →
      Rule.Enters decls rule input memo (.ok result) (memo'.map (·.insert rule input result))
        cost.nested
  | failed {rule : Rule} {input : Term} {memo memo' : Option Memo} {failure : Failure} {cost : Cost} :
      memo.bind (·.get? rule input) = none →
      Rule.Settles decls rule input memo (.error failure) memo' cost →
      Rule.Enters decls rule input memo (.error (failure.leaving rule.name)) memo' cost.nested

/-- The answer to what a step of a rule on an input asks for. -/
inductive Request.Settles (decls : Declarations) :
    Rule → Term → Request → Option Memo → Outcome Term → Option Memo → Cost → Prop where
  | refused {rule : Rule} {input next : Term} {memo : Option Memo} {failure : Failure} :
      rule.admitFeedback input next = .error failure →
      Request.Settles decls rule input (.self next) memo (.error failure) memo 0
  | self {rule : Rule} {input next : Term} {memo memo' : Option Memo} {o : Outcome Term}
      {cost : Cost} :
      rule.admitFeedback input next = .ok () →
      Rule.Enters decls rule next memo o memo' cost →
      Request.Settles decls rule input (.self next) memo o memo' cost
  | call {rule called : Rule} {input term : Term} {memo memo' : Option Memo} {o : Outcome Term}
      {cost : Cost} :
      Rule.Enters decls called term memo o memo' cost →
      Request.Settles decls rule input (.call called term) memo o memo' cost

/-- A plan carried out for a rule on an input. -/
inductive Plan.Settles (decls : Declarations) :
    Rule → Term → {α : Type} → Plan α → Option Memo → Outcome α → Option Memo → Cost → Prop where
  | done {rule : Rule} {input : Term} {memo : Option Memo} {α : Type} (value : α) :
      Plan.Settles decls rule input (.done value) memo (.ok value) memo 0
  | fail {rule : Rule} {input : Term} {memo : Option Memo} {α : Type} (failure : Failure) :
      Plan.Settles decls rule input (.fail failure : Plan α) memo (.error failure) memo 0
  | note {rule : Rule} {input : Term} {memo memo' : Option Memo} {α : Type} {n : Note}
      {rest : Plan α} {o : Outcome α} {cost : Cost} :
      Plan.Settles decls rule input rest memo o memo' cost →
      Plan.Settles decls rule input (.note n rest) memo o memo' cost
  | failed {rule : Rule} {input : Term} {memo memo' : Option Memo} {α : Type} {request : Request}
      {next : Term → Plan α} {failure : Failure} {cost : Cost} :
      Request.Settles decls rule input request memo (.error failure) memo' cost →
      Plan.Settles decls rule input (.ask request next) memo (.error failure) memo' cost
  | answered {rule : Rule} {input term : Term} {memo memo₁ memo' : Option Memo} {α : Type}
      {request : Request} {next : Term → Plan α} {o : Outcome α} {cost cost' : Cost} :
      Request.Settles decls rule input request memo (.ok term) memo₁ cost →
      Plan.Settles decls rule input (next term) memo₁ o memo' cost' →
      Plan.Settles decls rule input (.ask request next) memo o memo' (cost + cost')

end

/-- A run takes a step at least. -/
theorem Rule.Settles.steps_pos {decls : Declarations} {rule : Rule} {input : Term}
    {memo memo' : Option Memo} {o : Outcome Term} {cost : Cost}
    (h : Rule.Settles decls rule input memo o memo' cost) : 0 < cost.steps := by
  cases h <;> simp only [Cost.step_steps, Cost.add_steps] <;> omega

/-! ## What the limits allow -/

/-- Whether a limit was reached. -/
def Outcome.hitLimit {α : Type} : Outcome α → Bool
  | .ok _ => false
  | .error failure => failure.hitLimit

/-- A session can meet the cost: it has room for the frames, and as many steps
left. -/
structure Cost.Fits (cost : Cost) (s : Session) : Prop where
  depth : cost.depth ≤ s.frames.maxDepth - s.frames.depth
  steps : ∀ budget ∈ s.meter.budget, cost.steps ≤ budget - s.meter.steps

/-- `s'` is `s` after some steps, with a memo in place of its own; the counters
may have changed. -/
structure Session.Spends (s : Session) (steps : Nat) (memo : Option Memo) (s' : Session) : Prop where
  steps : s'.meter.steps = s.meter.steps + steps
  budget : s'.meter.budget = s.meter.budget
  frames : s'.frames = s.frames
  memo : s'.memo = memo

namespace Session.Spends

theorem refl (s : Session) : s.Spends 0 s.memo s := ⟨rfl, rfl, rfl, rfl⟩

theorem trans {s s₁ s' : Session} {n n' : Nat} {memo memo' : Option Memo} (h : s.Spends n memo s₁)
    (h' : s₁.Spends n' memo' s') : s.Spends (n + n') memo' s' :=
  ⟨by rw [h'.steps, h.steps, Nat.add_assoc], h'.budget.trans h.budget, h'.frames.trans h.frames,
    h'.memo⟩

/-- Counting what happened spends nothing. -/
theorem count {s s' : Session} {n : Nat} {memo : Option Memo} (f : Counters → Counters)
    (h : s.Spends n memo s') : s.Spends n memo { s' with meter := s'.meter.count f } :=
  ⟨h.steps, h.budget, h.frames, h.memo⟩

end Session.Spends

namespace Cost.Fits

variable {a b : Cost} {s s' : Session} {memo : Option Memo}

theorem add (ha : a.Fits s) (hs : s.Spends a.steps memo s') (hb : b.Fits s') : (a + b).Fits s := by
  refine ⟨?_, fun budget hbudget => ?_⟩
  · have hb := hb.depth
    rw [hs.frames] at hb
    exact Nat.max_le.2 ⟨ha.depth, hb⟩
  · have ha := ha.steps budget hbudget
    have hb := hb.steps budget (by rwa [hs.budget])
    rw [hs.steps] at hb
    show a.steps + b.steps ≤ _
    omega

theorem left (h : (a + b).Fits s) : a.Fits s :=
  ⟨Nat.le_trans (Nat.le_max_left _ _) h.depth, fun budget hbudget =>
    Nat.le_trans (Nat.le_add_right _ _) (h.steps budget hbudget)⟩

theorem right {n : Nat} (h : (a + b).Fits s) (hs : s.Spends n memo s') (hn : n ≤ a.steps) :
    b.Fits s' := by
  refine ⟨?_, fun budget hbudget => ?_⟩
  · rw [hs.frames]
    exact Nat.le_trans (Nat.le_max_right _ _) h.depth
  · rw [hs.budget] at hbudget
    have hsteps : a.steps + b.steps ≤ _ := h.steps budget hbudget
    rw [hs.steps]
    omega

end Cost.Fits

theorem Failure.hitLimit_leaving (failure : Failure) (rule : String) :
    (failure.leaving rule).hitLimit = failure.hitLimit := by
  rw [hitLimit, hitLimit, cause_leaving]

namespace Reduction

open Eval

variable {α : Type} {decls : Declarations} {runs : Rule → Term → Eval Session Term} {fuel : Nat}

/-! ## Frames -/

/-- `s₁` is `s` with a frame on top. -/
structure Pushed (s s₁ : Session) : Prop where
  pop : s₁.frames.pop = s.frames
  depth : s₁.frames.depth = s.frames.depth + 1
  maxDepth : s₁.frames.maxDepth = s.frames.maxDepth
  steps : s₁.meter.steps = s.meter.steps
  budget : s₁.meter.budget = s.meter.budget
  memo : s₁.memo = s.memo

/-- A frame is put on top as long as there is room for it. -/
theorem pushFrame_cases (rule : String) (s : Session) :
    (s.frames.depth < s.frames.maxDepth ∧ ∃ s₁, pushFrame rule s = .ok () s₁ ∧ Pushed s s₁) ∨
      s.frames.maxDepth ≤ s.frames.depth ∧
        ∃ failure, pushFrame rule s = lift (.error failure) s ∧ failure.hitLimit = true := by
  have hpush : pushFrame rule s = (lift (s.frames.push rule) >>= fun frames =>
      modify (fun s => { s with frames }) >>= fun _ => tick (Meter.entered frames.depth)) s := rfl
  rw [hpush, bind_apply, Frames.push]
  by_cases hfull : s.frames.maxDepth ≤ s.frames.depth
  · rw [if_pos hfull]
    exact .inr ⟨hfull, ⟨.limitReached .depth s.frames.maxDepth, []⟩, rfl, rfl⟩
  · rw [if_neg hfull]
    exact .inl ⟨Nat.lt_of_not_le hfull, _, rfl, rfl, rfl, rfl, rfl, rfl, rfl⟩

theorem Pushed.fits_nested {s s₁ : Session} {cost : Cost} (h : Pushed s s₁)
    (hroom : s.frames.depth < s.frames.maxDepth) (hfits : cost.Fits s₁) : cost.nested.Fits s := by
  refine ⟨?_, fun budget hbudget => ?_⟩
  · have hdepth := hfits.depth
    rw [h.depth, h.maxDepth] at hdepth
    show cost.depth + 1 ≤ _
    omega
  · have hsteps := hfits.steps budget (by rwa [h.budget])
    rwa [h.steps] at hsteps

theorem Pushed.fits_of_nested {s s₁ : Session} {cost : Cost} (h : Pushed s s₁)
    (hfits : cost.nested.Fits s) : cost.Fits s₁ := by
  refine ⟨?_, fun budget hbudget => ?_⟩
  · have hdepth : cost.depth + 1 ≤ _ := hfits.depth
    rw [h.depth, h.maxDepth]
    omega
  · rw [h.steps]
    exact hfits.steps budget (by rwa [← h.budget])

/-- Taking the frame off again after a run. -/
theorem Pushed.spends {s s₁ s₂ : Session} {n : Nat} {memo : Option Memo} (h : Pushed s s₁)
    (hs : s₁.Spends n memo s₂) : s.Spends n memo { s₂ with frames := s₂.frames.pop } :=
  ⟨by rw [hs.steps, h.steps], hs.budget.trans h.budget, by rw [hs.frames, h.pop], hs.memo⟩

theorem thenPop_eq_lift {x : Eval Session α} {o : Outcome α} {s s' : Session}
    (h : thenPop x s = lift o s') :
    ∃ s₁, x s = lift o s₁ ∧ s' = { s₁ with frames := s₁.frames.pop } := by
  unfold thenPop at h
  match hx : x s with
  | .ok value s₁ =>
    rw [hx] at h
    obtain ⟨rfl, rfl⟩ := lift_injective (o := .ok value) h
    exact ⟨s₁, rfl, rfl⟩
  | .error (.failed failure) s₁ =>
    rw [hx] at h
    obtain ⟨rfl, rfl⟩ := lift_injective (o := .error failure) h
    exact ⟨s₁, rfl, rfl⟩
  | .error .unfinished s₁ =>
    rw [hx] at h
    exact absurd h.symm (lift_ne_unfinished _ _ _)

theorem thenPop_of_eq_lift {x : Eval Session α} {o : Outcome α} {s s₁ : Session}
    (h : x s = lift o s₁) : thenPop x s = lift o { s₁ with frames := s₁.frames.pop } := by
  unfold thenPop
  rw [h]
  cases o <;> rfl

theorem leaving_of_eq_lift {x : Eval Session α} {o : Outcome α} {s s₁ : Session} {rule : String}
    (h : x s = lift o s₁) :
    Eval.leaving rule x s = lift (o.mapError (·.leaving rule)) s₁ := by
  unfold Eval.leaving
  rw [h]
  cases o <;> rfl

theorem leaving_eq_lift {x : Eval Session α} {o : Outcome α} {s s' : Session} {rule : String}
    (h : Eval.leaving rule x s = lift o s') :
    ∃ o₁ : Outcome α, x s = lift o₁ s' ∧ o = o₁.mapError (·.leaving rule) := by
  have hcut : ∀ s₁, x s ≠ .error .unfinished s₁ := by
    intro s₁ hx
    simp only [Eval.leaving, hx] at h
    exact absurd h.symm (lift_ne_unfinished _ _ _)
  obtain ⟨o₁, s₁, hx⟩ := exists_lift_of_ne_unfinished hcut
  rw [leaving_of_eq_lift hx] at h
  obtain ⟨rfl, rfl⟩ := lift_injective h
  exact ⟨o₁, hx, rfl⟩

theorem leaving_eq_error {x : Eval Session α} {s s' : Session} {halt : Halt} {rule : String}
    (h : Eval.leaving rule x s = .error halt s') : ∃ halt', x s = .error halt' s' := by
  unfold Eval.leaving at h
  match hx : x s with
  | .ok value s₁ =>
    rw [hx] at h
    cases h
  | .error (.failed failure) s₁ =>
    rw [hx] at h
    cases h
    exact ⟨_, rfl⟩
  | .error .unfinished s₁ =>
    rw [hx] at h
    cases h
    exact ⟨_, rfl⟩

theorem thenPop_eq_error {x : Eval Session α} {s s' : Session} {halt : Halt}
    (h : thenPop x s = .error halt s') :
    ∃ s₁, x s = .error halt s₁ ∧ s' = { s₁ with frames := s₁.frames.pop } := by
  unfold thenPop at h
  cases hx : x s with
  | ok value s₁ =>
    rw [hx] at h
    cases h
  | error halt' s₁ =>
    rw [hx] at h
    cases h
    exact ⟨s₁, rfl, rfl⟩

/-! ## Runs settle -/

theorem observe_apply (n : Note) (s : Session) :
    observe n s = .ok () { s with meter := s.meter.count fun c => match n with
      | .armTried => { c with armsTried := c.armsTried + 1 }
      | .armTaken => { c with armsTaken := c.armsTaken + 1 } } := by
  cases n <;> rfl

/-- Evaluation from `s` to `s'` settles as `P` says, at a cost that it spends. -/
def Accounts (s s' : Session) (P : Option Memo → Option Memo → Cost → Prop) : Prop :=
  ∃ cost, P s.memo s'.memo cost ∧ cost.Fits s ∧ s.Spends cost.steps s'.memo s'

/-- Whatever `runs` comes to within the limits, the rule settles so. -/
def Sound (decls : Declarations) (runs : Rule → Term → Eval Session Term) : Prop :=
  ∀ {rule : Rule} {input : Term} {s s' : Session} {o : Outcome Term},
    runs rule input s = lift o s' → o.hitLimit = false →
    Accounts s s' (Rule.Settles decls rule input · o)

theorem known?_apply (rule : Rule) (input : Term) (s : Session) :
    known? rule input s = .ok (s.memo.bind (·.get? rule input)) s := rfl

theorem enter_eq_recalled {rule : Rule} {input known : Term} {s : Session}
    (h : s.memo.bind (·.get? rule input) = some known) :
    enter runs rule input s = .ok known { s with meter := s.meter.recalled } := by
  rw [enter, bind_apply, known?_apply, h]
  rfl

theorem enter_eq_ran {rule : Rule} {input : Term} {s : Session}
    (h : s.memo.bind (·.get? rule input) = none) :
    enter runs rule input s =
      (Eval.leaving rule.name (pushFrame rule.name >>= fun _ => thenPop (runs rule input)) >>=
        fun output => remember rule input output >>= fun _ => pure output) s := by
  rw [enter, bind_apply, known?_apply, h]

theorem enter_sound (hruns : Sound decls runs) {rule : Rule} {input : Term} {s s' : Session}
    {o : Outcome Term} (h : enter runs rule input s = lift o s') (ho : o.hitLimit = false) :
    Accounts s s' (Rule.Enters decls rule input · o) := by
  cases hknown : s.memo.bind (·.get? rule input) with
  | some known =>
    rw [enter_eq_recalled hknown] at h
    obtain ⟨rfl, rfl⟩ := lift_injective (o := .ok known) h
    refine ⟨0, .recalled hknown, ⟨Nat.zero_le _, fun _ _ => Nat.zero_le _⟩, ?_⟩
    exact (Session.Spends.refl s).count _
  | none =>
    rw [enter_eq_ran hknown] at h
    -- a failure below and a result differ only in what happens to them afterwards
    have hbelow : ∀ {o : Outcome Term} {s₂ : Session}, o.hitLimit = false →
        Eval.leaving rule.name (pushFrame rule.name >>= fun _ => thenPop (runs rule input)) s =
          lift o s₂ →
        ∃ o₁ : Outcome Term, o = o₁.mapError (·.leaving rule.name) ∧ Accounts s s₂ fun memo memo' cost =>
          ∃ cost', cost = cost'.nested ∧ Rule.Settles decls rule input memo o₁ memo' cost' := by
      intro o s₂ ho hleft
      obtain ⟨o₁, hx, rfl⟩ := leaving_eq_lift hleft
      have ho₁ : o₁.hitLimit = false := by
        cases o₁ with
        | ok value => rfl
        | error failure => exact (failure.hitLimit_leaving rule.name).symm.trans ho
      rcases pushFrame_cases rule.name s with
        ⟨hroom, s₁, hpush, hpushed⟩ | ⟨-, failure, hpush, hlimit⟩
      · rw [bind_apply, hpush] at hx
        obtain ⟨s₃, hrun, rfl⟩ := thenPop_eq_lift hx
        obtain ⟨cost, hsettles, hfits, hspends⟩ := hruns hrun ho₁
        rw [hpushed.memo] at hsettles
        exact ⟨o₁, rfl, cost.nested, ⟨cost, rfl, hsettles⟩, hpushed.fits_nested hroom hfits,
          hpushed.spends hspends⟩
      · rw [bind_apply, hpush] at hx
        obtain ⟨rfl, -⟩ := lift_injective (o := .error failure) hx
        cases hlimit.symm.trans ho₁
    rcases bind_eq_lift h with ⟨failure, hleft, rfl⟩ | ⟨output, s₂, hleft, hrest⟩
    · obtain ⟨o₁, heq, cost, ⟨cost', rfl, hsettles⟩, hfits, hspends⟩ := hbelow ho hleft
      cases o₁ with
      | ok value => cases heq
      | error failure =>
        cases heq
        exact ⟨_, .failed hknown hsettles, hfits, hspends⟩
    · obtain ⟨rfl, rfl⟩ := lift_injective (o := .ok output) hrest
      obtain ⟨o₁, heq, cost, ⟨cost', rfl, hsettles⟩, hfits, hspends⟩ :=
        hbelow (o := .ok output) rfl hleft
      cases o₁ with
      | error failure => cases heq
      | ok value =>
        cases heq
        exact ⟨_, .ran hknown hsettles, hfits, hspends.steps, hspends.budget, hspends.frames, rfl⟩

theorem answer_sound (hruns : Sound decls runs) {rule : Rule} {input : Term} {request : Request}
    {s s' : Session} {o : Outcome Term} (h : answer runs rule input request s = lift o s')
    (ho : o.hitLimit = false) : Accounts s s' (Request.Settles decls rule input request · o) := by
  cases request with
  | call called term =>
    obtain ⟨cost, henters, hspends⟩ := enter_sound hruns h ho
    exact ⟨cost, .call henters, hspends⟩
  | self next =>
    rw [answer, bind_apply] at h
    cases hfeedback : rule.admitFeedback input next with
    | error failure =>
      rw [hfeedback] at h
      obtain ⟨rfl, rfl⟩ := lift_injective (o := .error failure) h
      exact ⟨0, .refused hfeedback, ⟨Nat.zero_le _, fun _ _ => Nat.zero_le _⟩, .refl s⟩
    | ok _ =>
      rw [hfeedback] at h
      obtain ⟨cost, henters, hspends⟩ := enter_sound hruns h ho
      exact ⟨cost, .self hfeedback henters, hspends⟩

theorem exec_sound (hruns : Sound decls runs) {rule : Rule} {input : Term} {plan : Plan α}
    {s s' : Session} {o : Outcome α} (h : plan.exec observe (answer runs rule input) s = lift o s')
    (ho : o.hitLimit = false) : Accounts s s' (Plan.Settles decls rule input plan · o) := by
  induction plan generalizing s with
  | done value =>
    obtain ⟨rfl, rfl⟩ := lift_injective (o := .ok value) h
    exact ⟨0, .done value, ⟨Nat.zero_le _, fun _ _ => Nat.zero_le _⟩, .refl s⟩
  | fail failure =>
    obtain ⟨rfl, rfl⟩ := lift_injective (o := .error failure) h
    exact ⟨0, .fail failure, ⟨Nat.zero_le _, fun _ _ => Nat.zero_le _⟩, .refl s⟩
  | note n rest ih =>
    rw [Plan.exec, bind_apply, observe_apply] at h
    obtain ⟨cost, hsettles, hfits, hspends⟩ := ih h
    exact ⟨cost, .note hsettles, ⟨hfits.depth, hfits.steps⟩, hspends.steps, hspends.budget,
      hspends.frames, hspends.memo⟩
  | ask request next ih =>
    rw [Plan.exec] at h
    rcases bind_eq_lift h with ⟨failure, hanswer, rfl⟩ | ⟨term, s₁, hanswer, hrest⟩
    · obtain ⟨cost, hsettles, hspends⟩ := answer_sound hruns hanswer ho
      exact ⟨cost, .failed hsettles, hspends⟩
    · obtain ⟨cost, hsettles, hfits, hspends⟩ := answer_sound (o := .ok term) hruns hanswer rfl
      obtain ⟨cost', hsettles', hfits', hspends'⟩ := ih term hrest
      exact ⟨cost + cost', .answered hsettles hsettles', hfits.add hspends hfits',
        hspends.trans hspends'⟩

theorem proceed_refused {rule : Rule} {input next : Term} {failure : Failure} {s : Session}
    (h : rule.admitFeedback input next = .error failure) :
    proceed runs rule input (.again next) s = lift (.error failure) s := by
  rw [proceed, bind_apply, h]
  rfl

theorem proceed_again {rule : Rule} {input next : Term} {s : Session}
    (h : rule.admitFeedback input next = .ok ()) :
    proceed runs rule input (.again next) s =
      runs rule next { s with meter := s.meter.fedBack } := by
  rw [proceed, bind_apply, h]
  rfl

/-- A step is taken as long as there is one left. -/
theorem spendStep_cases (s : Session) :
    (∃ s₁, spendStep s = .ok () s₁ ∧ s.Spends 1 s.memo s₁ ∧ (0 : Cost).step.Fits s) ∨
      ¬ (0 : Cost).step.Fits s ∧
        ∃ failure s₁, spendStep s = lift (.error failure) s₁ ∧ failure.hitLimit = true := by
  rw [spendStep_apply]
  cases hcheck : s.meter.step.check with
  | error failure =>
    obtain ⟨budget, hbudget, hover, hlimit⟩ := check_eq_error hcheck
    refine .inr ⟨fun hfits => ?_, failure, _, rfl, hlimit⟩
    have hleft : 1 ≤ budget - s.meter.steps := hfits.steps budget hbudget
    have hover : budget < s.meter.steps + 1 := hover
    omega
  | ok _ =>
    refine .inl ⟨_, rfl, ⟨rfl, rfl, rfl, rfl⟩, Nat.zero_le _, fun budget hbudget => ?_⟩
    have hleft : s.meter.steps + 1 ≤ budget := check_eq_ok hcheck budget hbudget
    show 1 ≤ _
    omega

/-- A run that ends within the limits settles as it ends. -/
theorem run_sound (decls : Declarations) (fuel : Nat) : Sound decls (run decls fuel) := by
  induction fuel with
  | zero =>
    intro rule input s s' o h _
    exact absurd h.symm (lift_ne_unfinished o s' s)
  | succ fuel ih =>
    intro rule input s s' o h ho
    rw [run, bind_apply] at h
    rcases spendStep_cases s with ⟨s₁, hspend, hspends₁, hfits₁⟩ | ⟨-, failure, s₁, hspend, hlimit⟩
    · have hstep : ∀ {cost : Cost} {s₂ : Session}, cost.Fits s₁ →
          s₁.Spends cost.steps s₂.memo s₂ →
          cost.step.Fits s ∧ s.Spends cost.step.steps s₂.memo s₂ := by
        intro cost s₂ hfits hspends
        rw [cost.step_eq]
        exact ⟨hfits₁.add hspends₁ hfits, hspends₁.trans hspends⟩
      rw [hspend] at h
      rcases bind_eq_lift h with ⟨failure, hexec, rfl⟩ | ⟨step, s₂, hexec, hrest⟩
      · obtain ⟨cost, hsettles, hfits, hspends⟩ := exec_sound ih hexec ho
        rw [hspends₁.memo] at hsettles
        exact ⟨_, .failed hsettles, hstep hfits hspends⟩
      · obtain ⟨cost, hsettles, hfits, hspends⟩ := exec_sound (o := .ok step) ih hexec rfl
        rw [hspends₁.memo] at hsettles
        obtain ⟨hfits, hspends⟩ := hstep hfits hspends
        cases step with
        | done result =>
          obtain ⟨rfl, rfl⟩ := lift_injective (o := .ok result) hrest
          exact ⟨_, .done hsettles, hfits, hspends⟩
        | again next =>
          cases hfeedback : rule.admitFeedback input next with
          | error failure =>
            rw [proceed_refused hfeedback] at hrest
            obtain ⟨rfl, rfl⟩ := lift_injective (o := .error failure) hrest
            exact ⟨_, .refused hsettles hfeedback, hfits, hspends⟩
          | ok _ =>
            rw [proceed_again hfeedback] at hrest
            obtain ⟨cost', hsettles', hfits', hspends'⟩ := ih hrest ho
            have hfed := hspends.count fun c => { c with feedbacks := c.feedbacks + 1 }
            exact ⟨_, .again hsettles hfeedback hsettles', hfits.add hfed hfits', hfed.trans hspends'⟩
    · rw [hspend] at h
      obtain ⟨rfl, -⟩ := lift_injective (o := .error failure) h
      cases hlimit.symm.trans ho

/-! ## What settles is run -/

/-- What a rule settles to, `runs` comes to, if the steps are no more than `fuel`
and the session can meet the cost. -/
def Complete (decls : Declarations) (fuel : Nat) (runs : Rule → Term → Eval Session Term) : Prop :=
  ∀ {rule : Rule} {input : Term} {s : Session} {o : Outcome Term} {memo' : Option Memo} {cost : Cost},
    Rule.Settles decls rule input s.memo o memo' cost → cost.steps ≤ fuel → cost.Fits s →
    ∃ s', runs rule input s = lift o s' ∧ s.Spends cost.steps memo' s'

theorem enter_complete (hruns : Complete decls fuel runs) {rule : Rule} {input : Term} {s : Session}
    {o : Outcome Term} {memo' : Option Memo} {cost : Cost}
    (h : Rule.Enters decls rule input s.memo o memo' cost) (hfuel : cost.steps ≤ fuel)
    (hfits : cost.Fits s) :
    ∃ s', enter runs rule input s = lift o s' ∧ s.Spends cost.steps memo' s' := by
  -- a run that settles goes through in a new frame
  have hbelow : ∀ {o : Outcome Term} {memo' : Option Memo} {cost : Cost},
      Rule.Settles decls rule input s.memo o memo' cost → cost.steps ≤ fuel → cost.nested.Fits s →
      ∃ s', Eval.leaving rule.name (pushFrame rule.name >>= fun _ => thenPop (runs rule input)) s =
        lift (o.mapError (·.leaving rule.name)) s' ∧ s.Spends cost.steps memo' s' := by
    intro o memo' cost hsettles hfuel hfits
    rcases pushFrame_cases rule.name s with ⟨-, s₁, hpush, hpushed⟩ | ⟨hfull, -⟩
    · rw [← hpushed.memo] at hsettles
      obtain ⟨s₂, hrun, hspends⟩ := hruns hsettles hfuel (hpushed.fits_of_nested hfits)
      refine ⟨_, leaving_of_eq_lift ?_, hpushed.spends hspends⟩
      rw [bind_apply, hpush]
      exact thenPop_of_eq_lift hrun
    · have hdepth : cost.depth + 1 ≤ _ := hfits.depth
      omega
  cases h with
  | recalled hknown =>
    rw [enter_eq_recalled hknown]
    exact ⟨_, rfl, (Session.Spends.refl s).count _⟩
  | failed hknown hsettles =>
    obtain ⟨s', hleft, hspends⟩ := hbelow hsettles hfuel hfits
    rw [enter_eq_ran hknown, bind_apply, hleft]
    exact ⟨s', rfl, hspends⟩
  | ran hknown hsettles =>
    obtain ⟨s', hleft, hspends⟩ := hbelow hsettles hfuel hfits
    rw [enter_eq_ran hknown, bind_apply, hleft]
    exact ⟨_, rfl, hspends.steps, hspends.budget, hspends.frames, by rw [← hspends.memo]⟩

theorem answer_complete (hruns : Complete decls fuel runs) {rule : Rule} {input : Term}
    {request : Request} {s : Session} {o : Outcome Term} {memo' : Option Memo} {cost : Cost}
    (h : Request.Settles decls rule input request s.memo o memo' cost) (hfuel : cost.steps ≤ fuel)
    (hfits : cost.Fits s) :
    ∃ s', answer runs rule input request s = lift o s' ∧ s.Spends cost.steps memo' s' := by
  cases h with
  | refused hfeedback =>
    rw [answer, bind_apply, hfeedback]
    exact ⟨s, rfl, .refl s⟩
  | self hfeedback henters =>
    rw [answer, bind_apply, hfeedback, lift_ok]
    exact enter_complete hruns henters hfuel hfits
  | call henters => exact enter_complete hruns henters hfuel hfits

theorem exec_complete (hruns : Complete decls fuel runs) {rule : Rule} {input : Term}
    {plan : Plan α} {s : Session} {o : Outcome α} {memo' : Option Memo} {cost : Cost}
    (h : Plan.Settles decls rule input plan s.memo o memo' cost) (hfuel : cost.steps ≤ fuel)
    (hfits : cost.Fits s) :
    ∃ s', plan.exec observe (answer runs rule input) s = lift o s' ∧
      s.Spends cost.steps memo' s' := by
  induction plan generalizing s cost with
  | done value =>
    cases h
    exact ⟨s, rfl, .refl s⟩
  | fail failure =>
    cases h
    exact ⟨s, rfl, .refl s⟩
  | note n rest ih =>
    cases h with
    | note hrest =>
      rw [Plan.exec, bind_apply, observe_apply]
      obtain ⟨s', hexec, hspends⟩ := ih (s := { s with meter := s.meter.count _ }) hrest hfuel
        ⟨hfits.depth, hfits.steps⟩
      exact ⟨s', hexec, hspends.steps, hspends.budget, hspends.frames, hspends.memo⟩
  | ask request next ih =>
    rw [Plan.exec, bind_apply]
    cases h with
    | failed hanswer =>
      obtain ⟨s', heq, hspends⟩ := answer_complete hruns hanswer hfuel hfits
      exact ⟨s', by rw [heq, lift_error, lift_error], hspends⟩
    | answered hanswer hrest =>
      obtain ⟨s₁, heq, hspends⟩ := answer_complete hruns hanswer
        (Nat.le_trans (Nat.le_add_right _ _) hfuel) hfits.left
      rw [heq, lift_ok]
      rw [← hspends.memo] at hrest
      obtain ⟨s', hexec, hspends'⟩ := ih _ hrest (Nat.le_trans (Nat.le_add_left _ _) hfuel)
        (hfits.right hspends (Nat.le_refl _))
      exact ⟨s', hexec, hspends.trans hspends'⟩

/-- A run whose cost can be met ends as it settles, on fuel for its steps. -/
theorem run_complete (decls : Declarations) (fuel : Nat) : Complete decls fuel (run decls fuel) := by
  induction fuel with
  | zero =>
    intro rule input s o memo' cost h hfuel _
    have hpos := h.steps_pos
    omega
  | succ fuel ih =>
    intro rule input s o memo' cost h hfuel hfits
    -- the first step is there to be taken, and what it asks for is carried out
    have hstep : ∀ {o : Outcome Step} {memo₁ : Option Memo} {cost : Cost},
        Plan.Settles decls rule input (rule.step decls input) s.memo o memo₁ cost →
        cost.steps ≤ fuel → cost.step.Fits s →
        ∃ s₁, s.Spends cost.step.steps memo₁ s₁ ∧ run decls (fuel + 1) rule input s =
          (lift o >>= proceed (run decls fuel) rule input) s₁ := by
      intro o memo₁ cost hplan hfuel hfits
      rw [cost.step_eq] at hfits ⊢
      rcases spendStep_cases s with ⟨s₁, hspend, hspends, -⟩ | ⟨hnone, -⟩
      · rw [← hspends.memo] at hplan
        obtain ⟨s₂, hexec, hspends'⟩ := exec_complete ih hplan hfuel
          (hfits.right hspends (Nat.le_refl _))
        refine ⟨s₂, hspends.trans hspends', ?_⟩
        rw [run, bind_apply, hspend]
        show ((rule.step decls input).exec _ _ >>= proceed _ rule input) s₁ = _
        rw [bind_apply, hexec, bind_apply]
      · exact absurd hfits.left hnone
    cases h with
    | failed hplan =>
      obtain ⟨s₁, hspends, hrun⟩ := hstep hplan (Nat.le_of_succ_le_succ hfuel) hfits
      exact ⟨s₁, hrun, hspends⟩
    | done hplan =>
      obtain ⟨s₁, hspends, hrun⟩ := hstep hplan (Nat.le_of_succ_le_succ hfuel) hfits
      exact ⟨s₁, hrun, hspends⟩
    | refused hplan hfeedback =>
      obtain ⟨s₁, hspends, hrun⟩ := hstep hplan (Nat.le_of_succ_le_succ hfuel) hfits
      exact ⟨s₁, hrun.trans (proceed_refused hfeedback), hspends⟩
    | @again _ _ next memo₁ _ _ _ cost cost' hplan hfeedback hrest =>
      have hsteps : cost.steps + 1 + cost'.steps ≤ fuel + 1 := hfuel
      obtain ⟨s₁, hspends, hrun⟩ := hstep hplan (by omega) hfits.left
      have hfed := hspends.count fun c => { c with feedbacks := c.feedbacks + 1 }
      rw [← hfed.memo] at hrest
      obtain ⟨s', hrun', hspends'⟩ := ih hrest (by omega) (hfits.right hfed (Nat.le_refl _))
      exact ⟨s', (hrun.trans (proceed_again hfeedback)).trans hrun', hfed.trans hspends'⟩

end Reduction

end Reshape
