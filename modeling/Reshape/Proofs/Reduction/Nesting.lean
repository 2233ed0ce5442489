import Reshape.Proofs.Reduction.Limits

/-!
# The loop and plain nesting

A rule that feeds a term back as the whole of an arm's body goes on with it in the
frame that it is in. This saves depth and changes nothing else: a reduction that
enters a new frame for every term fed back comes to the same outcome, with the same
trail, in as many steps, and tries and takes as many arms, as long as no depth
limit is in its way (`Rule.loop_agrees_with_nesting`).

The two reductions are compared on the same fuel, which a step of the loop and
a frame each take one unit of. What the two do at one step is one plan
(`Rule.build_eq`), so they differ only in what they do with a term that is fed
back, and there the trails agree because a rule that a failure leaves twice in a row
is recorded once (`Failure.leaving_leaving`).
-/

namespace Reshape

/-! ## The reduction without a loop -/

/-- Tries arms in order and builds the body of the one that is taken, whatever it
is; the terminal decides if none applies. -/
def Arm.buildFirst (decls : Declarations) (terminal : Terminal) (input : Term) :
    List Arm → Plan Term
  | [] => Plan.lift (terminal.result input)
  | arm :: rest => .note .armTried <|
    match arm.pattern.captures? decls input with
    | none => buildFirst decls terminal input rest
    | some captures => do
      if ← Guard.holdsIfAny decls arm.guard captures then
        .note .armTaken (arm.body.build decls captures)
      else buildFirst decls terminal input rest

/-- What a rule gives for an input. -/
def Rule.build (decls : Declarations) (rule : Rule) (input : Term) : Plan Term :=
  Arm.buildFirst decls rule.terminal input rule.arms

namespace Reduction

/-- Runs a rule inside its frame. Every term that is fed back gets a frame of its
own. -/
def nest (decls : Declarations) : (fuel : Nat) → Rule → Term → Eval Session Term
  | 0, _, _ => throw .unfinished
  | fuel + 1, rule, input => do
    spendStep
    (rule.build decls input).exec observe (answer (nest decls fuel) rule input)

end Reduction

/-- Reduces a term with a rule without a loop, on the given fuel. -/
def Rule.nestWithin (fuel : Nat) (rule : Rule) (decls : Declarations) (term : Term) :
    Eval Session Term := do
  if (← get).frames.isEmpty then Eval.lift (rule.vet decls term)
  Reduction.enter (Reduction.nest decls fuel) rule term

/-- Reduces a term with a rule without a loop. -/
def Rule.nest (rule : Rule) (decls : Declarations) (term : Term) : Eval Session Term := do
  rule.nestWithin (← get).fuel decls term

/-! ## One step -/

/-- The rest of a step: its result, or the request to run the rule on a term. -/
def Step.finish : Step → Plan Term
  | .done result => .done result
  | .again next => .ask (.self next) .done

/-- Finishing what an arm gives builds its whole body. -/
theorem Arm.take_finish (decls : Declarations) (arm : Arm) (captures : Captures) :
    arm.take decls captures >>= Step.finish = arm.body.build decls captures := by
  cases hbody : arm.body with
  | reduce inner =>
    simp only [take, hbody, Template.build, Plan.bind_assoc]
    rfl
  | _ =>
    simp only [take, hbody, Plan.bind_assoc]
    exact Plan.bind_done _

theorem Arm.buildFirst_eq (decls : Declarations) (terminal : Terminal) (input : Term)
    (arms : List Arm) :
    buildFirst decls terminal input arms =
      tryEach decls terminal input arms >>= Step.finish := by
  induction arms with
  | nil =>
    rw [buildFirst, tryEach, Plan.bind_assoc]
    exact (Plan.bind_done _).symm
  | cons arm rest ih =>
    rw [buildFirst, tryEach, Plan.note_bind]
    cases arm.pattern.captures? decls input with
    | none => simp only [ih]
    | some captures =>
      simp only [Plan.bind_assoc]
      congr 2
      funext holds
      cases holds with
      | false => exact ih
      | true => exact congrArg (Plan.note .armTaken) (take_finish decls arm captures).symm

/-- What a rule gives is what comes of its step. -/
theorem Rule.build_eq (rule : Rule) (decls : Declarations) (input : Term) :
    rule.build decls input = rule.step decls input >>= Step.finish :=
  Arm.buildFirst_eq decls rule.terminal input rule.arms

/-! ## Evaluations that agree -/

/-- How many arms were tried and taken. -/
def Counters.arms (counters : Counters) : Nat × Nat := (counters.armsTried, counters.armsTaken)

/-- The meters have the same budget, and count as many steps, arms tried and arms
taken. -/
structure Meter.CountsLike (m n : Meter) : Prop where
  budget : m.budget = n.budget
  steps : m.steps = n.steps
  arms : m.counters.map Counters.arms = n.counters.map Counters.arms

namespace Meter.CountsLike

variable {m n : Meter}

theorem refl (m : Meter) : m.CountsLike m := ⟨rfl, rfl, rfl⟩

theorem symm (h : m.CountsLike n) : n.CountsLike m :=
  ⟨h.budget.symm, h.steps.symm, h.arms.symm⟩

theorem step (h : m.CountsLike n) : m.step.CountsLike n.step :=
  ⟨h.budget, congrArg (· + 1) h.steps, h.arms⟩

theorem check (h : m.CountsLike n) : m.check = n.check := by
  simp only [Meter.check, Meter.overdrawn?, h.budget, h.steps]

/-- Counting something keeps meters alike if it does the same to the arms. -/
theorem count (h : m.CountsLike n) {f g : Counters → Counters} (k : Nat × Nat → Nat × Nat)
    (hf : ∀ c, (f c).arms = k c.arms) (hg : ∀ c, (g c).arms = k c.arms) :
    (m.count f).CountsLike (n.count g) := by
  refine ⟨h.budget, h.steps, ?_⟩
  have hk := congrArg (Option.map k) h.arms
  simpa only [Meter.count, Option.map_map, Function.comp_def, hf, hg] using hk

/-- Counting something else than arms on one side keeps meters alike. -/
theorem count_left (h : m.CountsLike n) {f : Counters → Counters} (hf : ∀ c, (f c).arms = c.arms) :
    (m.count f).CountsLike n := by
  have hn : n.count id = n := by rw [Meter.count, Option.map_id_fun, id]
  exact hn ▸ h.count id hf fun _ => rfl

theorem fedBack (h : m.CountsLike n) : m.fedBack.CountsLike n := h.count_left fun _ => rfl

theorem entered (h : m.CountsLike n) (depth : Nat) : (m.entered depth).CountsLike n :=
  h.count_left fun _ => rfl

end Meter.CountsLike

/-- Both are the same value, the same failure, or cut off, in states that are
related. -/
inductive Eval.Alike {σ α : Type} (related : σ → σ → Prop) :
    EStateM.Result Halt σ α → EStateM.Result Halt σ α → Prop where
  | ok {value : α} {s t : σ} : related s t → Alike related (.ok value s) (.ok value t)
  | error {halt : Halt} {s t : σ} : related s t → Alike related (.error halt s) (.error halt t)

namespace Eval

theorem leaving_bind {σ α β : Type} (rule : String) (x : Eval σ α) (f : α → Eval σ β) :
    leaving rule (x >>= f) = leaving rule x >>= fun value => leaving rule (f value) := by
  funext s
  simp only [leaving, bind_apply]
  rcases x s with ⟨value, s₁⟩ | ⟨failure | _, s₁⟩ <;> rfl

theorem leaving_leaving {σ α : Type} (rule : String) (x : Eval σ α) :
    leaving rule (leaving rule x) = leaving rule x := by
  funext s
  simp only [leaving]
  rcases x s with ⟨value, s₁⟩ | ⟨failure | _, s₁⟩
  · rfl
  · simp only [Failure.leaving_leaving]
  · rfl

end Eval

namespace Eval.Alike

variable {σ α β : Type} {related related' : σ → σ → Prop} {r r' : EStateM.Result Halt σ α}

theorem mono (h : Alike related r r') (hrelated : ∀ {s t}, related s t → related' s t) :
    Alike related' r r' := by
  cases h with
  | ok h => exact .ok (hrelated h)
  | error h => exact .error (hrelated h)

theorem symm (h : Alike related r r') : Alike (fun t s => related s t) r' r := by
  cases h with
  | ok h => exact .ok h
  | error h => exact .error h

theorem of_lift {o : Outcome α} {s : σ} (h : Alike related (lift o s) r') :
    ∃ t, r' = lift o t ∧ related s t := by
  cases o with
  | ok value =>
    cases h with
    | ok h => exact ⟨_, rfl, h⟩
  | error failure =>
    cases h with
    | error h => exact ⟨_, rfl, h⟩

/-- What is alike goes on alike. -/
theorem bind {x y : Eval σ α} {f g : α → Eval σ β} {s t : σ} (h : Alike related (x s) (y t))
    (hf : ∀ value s₁ t₁, related s₁ t₁ → Alike related' (f value s₁) (g value t₁))
    (herror : ∀ s₁ t₁, related s₁ t₁ → related' s₁ t₁) :
    Alike related' ((x >>= f) s) ((y >>= g) t) := by
  rw [bind_apply, bind_apply]
  generalize x s = r, y t = r' at h
  cases h with
  | ok h => exact hf _ _ _ h
  | error h => exact .error (herror _ _ h)

end Eval.Alike

/-- The session has no memo, and there may be so many more frames. -/
structure Session.Roomy (room : Nat) (s : Session) : Prop where
  memo : s.memo = none
  depth : s.frames.depth + room ≤ s.frames.maxDepth

/-- The sessions count alike, and have the frames of two earlier ones, still
without a memo. -/
structure Session.Parallel (s t s' t' : Session) : Prop where
  counts : s'.meter.CountsLike t'.meter
  left : s'.memo = none ∧ s'.frames = s.frames
  right : t'.memo = none ∧ t'.frames = t.frames

namespace Reduction

open Eval

variable {α β : Type} {room room' : Nat} {x y : Eval Session α}
  {runs runs' : Rule → Term → Eval Session Term}

/-- From sessions that count alike, the evaluations come to the same and count
alike, if there may be `room` more frames for the one and `room'` for the other. -/
def Agree (room room' : Nat) (x y : Eval Session α) : Prop :=
  ∀ s t, s.meter.CountsLike t.meter → s.Roomy room → t.Roomy room' →
    Alike (s.Parallel t) (x s) (y t)

namespace Agree

theorem symm (h : Agree room room' x y) : Agree room' room y x := fun t s hcounts ht hs =>
  (h s t hcounts.symm hs ht).symm.mono fun h => ⟨h.counts.symm, h.right, h.left⟩

theorem mono {more more' : Nat} (h : Agree room room' x y) (hroom : room ≤ more)
    (hroom' : room' ≤ more') : Agree more more' x y := by
  intro s t hcounts hs ht
  exact h s t hcounts ⟨hs.memo, Nat.le_trans (by omega) hs.depth⟩
    ⟨ht.memo, Nat.le_trans (by omega) ht.depth⟩

theorem lift (o : Outcome α) : Agree room room' (Eval.lift o) (Eval.lift o) := by
  intro s t hcounts hs ht
  cases o with
  | ok value => exact .ok ⟨hcounts, ⟨hs.memo, rfl⟩, ht.memo, rfl⟩
  | error failure => exact .error ⟨hcounts, ⟨hs.memo, rfl⟩, ht.memo, rfl⟩

theorem bind {f g : α → Eval Session β} (h : Agree room room' x y)
    (hf : ∀ value, Agree room room' (f value) (g value)) :
    Agree room room' (x >>= f) (y >>= g) := by
  intro s t hcounts hs ht
  refine (h s t hcounts hs ht).bind (fun value s₁ t₁ hfirst => ?_) fun _ _ => id
  obtain ⟨hcounts₁, ⟨hsmemo, hsframes⟩, htmemo, htframes⟩ := hfirst
  have hrest := hf value s₁ t₁ hcounts₁ ⟨hsmemo, hsframes ▸ hs.depth⟩ ⟨htmemo, htframes ▸ ht.depth⟩
  exact hrest.mono fun h => ⟨h.counts, hsframes ▸ h.left, htframes ▸ h.right⟩

/-- Changing the meters of both sessions keeps them parallel if it keeps the meters alike. -/
theorem tick {f g : Meter → Meter} (h : ∀ {m n}, m.CountsLike n → (f m).CountsLike (g n)) :
    Agree room room' (Reduction.tick f) (Reduction.tick g) := fun _ _ hcounts hs ht =>
  .ok ⟨h hcounts, ⟨hs.memo, rfl⟩, ht.memo, rfl⟩

theorem tick_left {f : Meter → Meter} (hf : ∀ {m n}, m.CountsLike n → (f m).CountsLike n)
    (h : Agree room room' x y) : Agree room room' (Reduction.tick f >>= fun _ => x) y :=
  fun s t hcounts hs ht =>
    (h { s with meter := f s.meter } t (hf hcounts) ⟨hs.memo, hs.depth⟩ ht).mono
      fun h => ⟨h.counts, h.left, h.right⟩

theorem spendStep : Agree room room' Reduction.spendStep Reduction.spendStep := by
  intro s t hcounts hs ht
  rw [spendStep_apply, spendStep_apply, hcounts.step.check]
  exact (lift t.meter.step.check { s with meter := s.meter.step } { t with meter := t.meter.step }
    hcounts.step ⟨hs.memo, hs.depth⟩ ⟨ht.memo, ht.depth⟩).mono fun h => ⟨h.counts, h.left, h.right⟩

theorem observe (n : Note) : Agree room room' (Reduction.observe n) (Reduction.observe n) := by
  cases n with
  | armTried => exact .tick fun h => h.count (fun arms => (arms.1 + 1, arms.2)) (fun _ => rfl) fun _ => rfl
  | armTaken => exact .tick fun h => h.count (fun arms => (arms.1, arms.2 + 1)) (fun _ => rfl) fun _ => rfl

theorem exec {ask ask' : Request → Eval Session Term}
    (h : ∀ request, Agree room room' (ask request) (ask' request)) (plan : Plan α) :
    Agree room room' (plan.exec Reduction.observe ask) (plan.exec Reduction.observe ask') := by
  induction plan with
  | done value => exact .lift (.ok value)
  | fail failure => exact .lift (.error failure)
  | note n rest ih => exact .bind (.observe n) fun _ => ih
  | ask request next ih => exact .bind (h request) ih

/-- Leaving a rule together keeps failures the same. -/
theorem leaving (rule : String) (h : Agree room room' x y) :
    Agree room room' (Eval.leaving rule x) (Eval.leaving rule y) := by
  intro s t hcounts hs ht
  have halike := h s t hcounts hs ht
  simp only [Eval.leaving]
  generalize x s = r, y t = r' at halike
  cases halike with
  | ok h => exact .ok h
  | @error halt _ _ h => cases halt <;> exact .error h

end Agree

variable {x : Eval Session Term} {rule : Rule} {term : Term} {decls : Declarations}

theorem leaving_thenPop (rule : String) (x : Eval Session α) :
    Eval.leaving rule (thenPop x) = thenPop (Eval.leaving rule x) := by
  funext s
  simp only [Eval.leaving, thenPop]
  rcases x s with ⟨value, s₁⟩ | ⟨failure | _, s₁⟩ <;> rfl

theorem meter_of_pushFrame {rule : String} {s s₁ : Session} (h : pushFrame rule s = .ok () s₁) :
    s₁.meter = s.meter.entered s₁.frames.depth := by
  have hpush : pushFrame rule s = (Eval.lift (s.frames.push rule) >>= fun frames =>
      modify (fun s => { s with frames }) >>= fun _ => tick (Meter.entered frames.depth)) s := rfl
  rw [hpush, bind_apply] at h
  cases hframes : s.frames.push rule with
  | ok frames =>
    rw [hframes] at h
    cases h
    rfl
  | error failure =>
    rw [hframes] at h
    cases h

/-- Entering a rule without a memo, where there is room for a frame. -/
theorem enter_eq_pushed {s s₁ : Session} (hmemo : s.memo = none)
    (hpush : pushFrame rule.name s = .ok () s₁) :
    enter runs rule term s =
      (thenPop (Eval.leaving rule.name (runs rule term)) >>=
        fun output => remember rule term output >>= fun _ => pure output) s₁ := by
  have hunknown : s.memo.bind (·.get? rule term) = none := by rw [hmemo, Option.bind_none]
  rw [enter_eq_ran hunknown, bind_apply, Eval.leaving_bind, bind_apply, leaving_thenPop,
    Eval.leaving, hpush, bind_apply]

/-- A failure of a rule that was entered has left it. -/
theorem leaving_enter : Eval.leaving rule.name (enter runs rule term) = enter runs rule term := by
  rw [enter, Eval.leaving_bind]
  congr 1
  funext known
  cases known with
  | some known => rfl
  | none =>
    simp only [Eval.leaving_bind, Eval.leaving_leaving]
    rfl

/-- Entering a rule agrees with what running it there agrees with, given one more frame. -/
theorem Agree.enter (h : Agree room room' x (Eval.leaving rule.name (runs rule term))) :
    Agree room (room' + 1) x (Reduction.enter runs rule term) := by
  intro s t hcounts hs ht
  have hdepth := ht.depth
  rcases pushFrame_cases rule.name t with ⟨-, t₁, hpush, hpushed⟩ | ⟨hfull, -⟩
  · have hcounts₁ : s.meter.CountsLike t₁.meter := by
      rw [meter_of_pushFrame hpush]
      exact (hcounts.symm.entered _).symm
    have ht₁ : t₁.Roomy room' :=
      ⟨hpushed.memo.trans ht.memo, by rw [hpushed.depth, hpushed.maxDepth]; omega⟩
    have hrun := h s t₁ hcounts₁ hs ht₁
    rw [enter_eq_pushed ht.memo hpush, bind_apply, thenPop]
    generalize x s = r, Eval.leaving rule.name (runs rule term) t₁ = r' at hrun
    cases hrun with
    | error hrun =>
      exact .error ⟨hrun.counts, hrun.left, hrun.right.1, by rw [hrun.right.2, hpushed.pop]⟩
    | ok hrun =>
      refine .ok ⟨hrun.counts, hrun.left, ?_, by rw [hrun.right.2, hpushed.pop]⟩
      exact Option.map_eq_none_iff.2 hrun.right.1
  · omega

/-- Entering rules agrees if running them does. -/
theorem enter_agrees
    (hruns : ∀ rule term, Agree room room' (Eval.leaving rule.name (runs rule term))
      (Eval.leaving rule.name (runs' rule term))) (rule : Rule) (term : Term) :
    Agree (room + 1) (room' + 1) (Reduction.enter runs rule term)
      (Reduction.enter runs' rule term) :=
  Agree.enter (hruns rule term).symm.enter.symm

/-- Going on in the same frame agrees with going on in a new one. -/
theorem proceed_agrees (rule : Rule) (input : Term)
    (hruns : ∀ rule term, Agree room room' (Eval.leaving rule.name (runs rule term))
      (Eval.leaving rule.name (runs' rule term))) (step : Step) :
    Agree room (room' + 1) (Eval.leaving rule.name (proceed runs rule input step))
      (Eval.leaving rule.name (step.finish.exec observe (answer runs' rule input))) := by
  cases step with
  | done result => exact .lift (.ok result)
  | again next =>
    have hleft : proceed runs rule input (.again next) =
        Eval.lift (rule.admitFeedback input next) >>= fun _ =>
          tick Meter.fedBack >>= fun _ => runs rule next := rfl
    have hright : (Step.again next).finish.exec observe (answer runs' rule input) =
        Eval.lift (rule.admitFeedback input next) >>= fun _ => enter runs' rule next := by
      show (Eval.lift (rule.admitFeedback input next) >>= fun _ => enter runs' rule next) >>= pure = _
      rw [bind_pure]
    rw [hleft, hright]
    simp only [Eval.leaving_bind]
    refine .bind (.leaving _ (.lift _)) fun _ => ?_
    rw [leaving_enter]
    exact .tick_left .fedBack (hruns rule next).enter

/-- What running a rule gives when it is left agrees. -/
theorem run_agrees (decls : Declarations) (fuel : Nat) (rule : Rule) (input : Term) :
    Agree fuel fuel (Eval.leaving rule.name (run decls fuel rule input))
      (Eval.leaving rule.name (nest decls fuel rule input)) := by
  induction fuel generalizing rule input with
  | zero => exact fun s t hcounts hs ht => .error ⟨hcounts, ⟨hs.memo, rfl⟩, ht.memo, rfl⟩
  | succ fuel ih =>
    have henter := enter_agrees ih
    rw [run, nest, Rule.build_eq]
    simp only [Plan.exec_bind, Eval.leaving_bind]
    refine (Agree.spendStep.leaving _).bind fun _ => .bind (.leaving _ (.exec ?_ _)) fun step => ?_
    · intro request
      cases request with
      | self next => exact .bind (.lift _) fun _ => henter rule next
      | call called term => exact henter called term
    · exact (proceed_agrees rule input ih step).mono (Nat.le_succ _) (Nat.le_refl _)

end Reduction

/-- On any fuel, the loop and plain nesting come to the same if there may be more frames than
the fuel allows. -/
theorem Rule.reduceWithin_alike (rule : Rule) (decls : Declarations) (term : Term) {fuel : Nat}
    {s : Session} (hmemo : s.memo = none) (hdepth : s.frames.depth + fuel < s.frames.maxDepth) :
    Eval.Alike (fun s₁ s₂ => s₁.meter.CountsLike s₂.meter) (rule.reduceWithin fuel decls term s)
      (rule.nestWithin fuel decls term s) := by
  have henter := Reduction.enter_agrees (Reduction.run_agrees decls fuel) rule term
  have hs : s.Roomy (fuel + 1) := ⟨hmemo, hdepth⟩
  rw [reduceWithin, nestWithin, Eval.bind_apply, Eval.bind_apply]
  show Eval.Alike _ ((if s.frames.isEmpty = true then _ else _ : Eval Session Term) s)
    ((if s.frames.isEmpty = true then _ else _ : Eval Session Term) s)
  split
  · have hvetted := (Reduction.Agree.lift (rule.vet decls term)).bind fun _ => henter
    exact (hvetted s s (.refl _) hs hs).mono fun h => h.counts
  · exact (henter s s (.refl _) hs hs).mono fun h => h.counts

/-- Where the depth limit is out of reach, the loop and plain nesting come to the same:
the same term, or the same failure with the same trail, after as many steps, arms tried
and arms taken. This holds on any fuel, whatever the budget is; and with a budget both come
to an end. -/
theorem Rule.loop_agrees_with_nesting (rule : Rule) (decls : Declarations) (term : Term)
    (s : Session) (hmemo : s.memo = none) :
    (∀ fuel, s.frames.depth + fuel < s.frames.maxDepth →
      Eval.Alike (fun s₁ s₂ => s₁.meter.CountsLike s₂.meter) (rule.reduceWithin fuel decls term s)
        (rule.nestWithin fuel decls term s)) ∧
    (∀ budget, s.meter.budget = some budget →
      s.frames.depth + (budget - s.meter.steps + 1) < s.frames.maxDepth →
      ∃ o s₁ s₂, rule.reduce decls term s = Eval.lift o s₁ ∧
        rule.nest decls term s = Eval.lift o s₂ ∧ s₁.meter.CountsLike s₂.meter) := by
  refine ⟨fun fuel => rule.reduceWithin_alike decls term hmemo, fun budget hbudget hdepth => ?_⟩
  have hfuel : s.fuel = budget - s.meter.steps + 1 := by rw [Session.fuel, hbudget]
  obtain ⟨o, s₁, hloop⟩ := rule.exists_reduce_eq_lift decls term hbudget
  have halike : Eval.Alike _ (rule.reduce decls term s) (rule.nest decls term s) :=
    rule.reduceWithin_alike decls term hmemo (hfuel ▸ hdepth)
  rw [hloop] at halike
  obtain ⟨s₂, hnest, hcounts⟩ := halike.of_lift
  exact ⟨o, s₁, s₂, hloop, hnest, hcounts⟩

/-- Two wrappings come off in three frames as they do in one. -/
theorem unwrapping_nests :
    ∃ o s₁ s₂, unwrapping.reduce ∅ (.seq [.seq [.text "x"]])
        (Session.ofMode (.custom 5 (some 3))).withCounters = Eval.lift o s₁ ∧
      unwrapping.nest ∅ (.seq [.seq [.text "x"]])
        (Session.ofMode (.custom 5 (some 3))).withCounters = Eval.lift o s₂ ∧
      s₁.meter.CountsLike s₂.meter :=
  (unwrapping.loop_agrees_with_nesting ∅ (.seq [.seq [.text "x"]])
    (Session.ofMode (.custom 5 (some 3))).withCounters rfl).2 3 rfl (by decide)

end Reshape
