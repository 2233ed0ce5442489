import Reshape.Proofs.Reduction.Memo
import Reshape.Proofs.Template.Simulation

/-!
# Reductions with a memo

A reduction that keeps a memo of correct records mirrors what the normal form of the rule
yields on the normal form of the input without a memo (`Reduction.run_mirrors`). It keeps
the memo correct, also where it fails or is cut off; what it comes to has the normal form
that is yielded; and what is yielded it comes to, in no more steps, unless it reaches a
limit that the cost without the memo does not fit into.
-/

namespace Reshape

namespace Reduction

open Eval

variable {α β α' β' : Type} {decls : Declarations} {fuel : Nat}

/-! ## Evaluation that mirrors -/

/-- Evaluation mirrors what is yielded, where `R` relates what it comes to with that. -/
structure Mirrors (decls : Declarations) (fuel : Nat) (x : Eval Session α) (R : α → β → Prop)
    (yields : β → Cost → Prop) : Prop where
  /-- A result is backed by a value that is yielded; without a memo the cost is what was spent. -/
  sound : ∀ {s s' : Session} {value : α}, s.Correct decls → x s = .ok value s' →
    s'.Correct decls ∧ ∃ value' cost, R value value' ∧ yields value' cost ∧
      (s.memo = none → cost.Fits s ∧ s.Spends cost.steps none s')
  failing : ∀ {s s' : Session} {halt : Halt}, s.Correct decls → x s = .error halt s' →
    s'.Correct decls ∧ (s.memo = none → s'.memo = none)
  /-- A value that is yielded is come to, or else a limit is reached that the cost exceeds. -/
  complete : ∀ {s : Session} {value' : β} {cost : Cost}, s.Correct decls → yields value' cost →
    cost.steps ≤ fuel →
    (∃ value s' n, x s = .ok value s' ∧ R value value' ∧ n ≤ cost.steps ∧ s.Spends n s'.memo s') ∨
      ¬ cost.Fits s ∧ ∃ failure s', x s = lift (.error failure) s' ∧ failure.hitLimit = true

namespace Mirrors

variable {x : Eval Session α} {R : α → β → Prop} {yields : β → Cost → Prop}

theorem pure {a : α} {b : β} (h : R a b) (hyields : ∀ {y cost}, yields y cost ↔ y = b ∧ cost = 0) :
    Mirrors decls fuel (pure a) R yields where
  sound hs heq := by
    cases heq
    refine ⟨hs, b, 0, h, hyields.2 ⟨rfl, rfl⟩, fun hmemo => ?_⟩
    rw [← hmemo]
    exact ⟨⟨Nat.zero_le _, fun _ _ => Nat.zero_le _⟩, .refl _⟩
  failing hs heq := by cases heq
  complete hs hy _ := by
    obtain ⟨rfl, rfl⟩ := hyields.1 hy
    exact .inl ⟨a, _, 0, rfl, h, Nat.le_refl 0, .refl _⟩

/-- Evaluation that fails mirrors where nothing is yielded. -/
theorem throw {failure : Failure} (hyields : ∀ {y cost}, ¬ yields y cost) :
    Mirrors decls fuel (throw (.failed failure)) R yields where
  sound hs heq := by cases heq
  failing hs heq := by
    cases heq
    exact ⟨hs, id⟩
  complete hs hy _ := absurd hy hyields

theorem mono {S : α → β → Prop} {yields' : β → Cost → Prop} (h : Mirrors decls fuel x R yields)
    (hyields : ∀ {y cost}, yields y cost ↔ yields' y cost)
    (hR : ∀ {a b cost}, R a b → yields b cost → S a b) : Mirrors decls fuel x S yields' where
  sound hs heq := by
    obtain ⟨hs', value', cost, hvalue, hy, hspent⟩ := h.sound hs heq
    exact ⟨hs', value', cost, hR hvalue hy, hyields.1 hy, hspent⟩
  failing := h.failing
  complete hs hy hfuel := by
    rcases h.complete hs (hyields.2 hy) hfuel with ⟨value, s', n, heq, hvalue, hrest⟩ | hlimit
    · exact .inl ⟨value, s', n, heq, hR hvalue (hyields.2 hy), hrest⟩
    · exact .inr hlimit

theorem congr {yields' : β → Cost → Prop} (h : Mirrors decls fuel x R yields)
    (hyields : ∀ {y cost}, yields y cost ↔ yields' y cost) : Mirrors decls fuel x R yields' :=
  h.mono hyields fun hvalue _ => hvalue

/-- A result is related to a value that is yielded. -/
theorem yielded (h : Mirrors decls fuel x R yields) :
    Mirrors decls fuel x (fun a b => R a b ∧ ∃ cost, yields b cost) yields :=
  h.mono .rfl fun hvalue hy => ⟨hvalue, _, hy⟩

theorem bind {f : α → Eval Session α'} {S : α' → β' → Prop} {Y : β → β' → Cost → Prop}
    {yields' : β' → Cost → Prop} (h : Mirrors decls fuel x R yields)
    (hf : ∀ a b, R a b → Mirrors decls fuel (f a) S (Y b))
    (hyields : ∀ {y cost}, yields' y cost ↔ ∃ b cost₁ cost₂, yields b cost₁ ∧ Y b y cost₂ ∧
      cost = cost₁ + cost₂) : Mirrors decls fuel (x >>= f) S yields' where
  sound := by
    intro s s' value hs heq
    rw [bind_apply] at heq
    cases hx : x s with
    | error halt s₁ =>
      rw [hx] at heq
      cases heq
    | ok a s₁ =>
      rw [hx] at heq
      obtain ⟨hs₁, b, cost₁, hab, hb, hspent₁⟩ := h.sound hs hx
      obtain ⟨hs', y, cost₂, hvalue, hy, hspent₂⟩ := (hf a b hab).sound hs₁ heq
      refine ⟨hs', y, cost₁ + cost₂, hvalue, hyields.2 ⟨b, cost₁, cost₂, hb, hy, rfl⟩, fun hmemo => ?_⟩
      obtain ⟨hfits₁, hspends₁⟩ := hspent₁ hmemo
      obtain ⟨hfits₂, hspends₂⟩ := hspent₂ hspends₁.memo
      exact ⟨hfits₁.add hspends₁ hfits₂, hspends₁.trans hspends₂⟩
  failing := by
    intro s s' halt hs heq
    rw [bind_apply] at heq
    cases hx : x s with
    | error halt' s₁ =>
      rw [hx] at heq
      cases heq
      exact h.failing hs hx
    | ok a s₁ =>
      rw [hx] at heq
      obtain ⟨hs₁, b, _, hab, -, hspent⟩ := h.sound hs hx
      obtain ⟨hs', hnone⟩ := (hf a b hab).failing hs₁ heq
      exact ⟨hs', fun hmemo => hnone (hspent hmemo).2.memo⟩
  complete := by
    intro s y cost hs hy hfuel
    obtain ⟨b, cost₁, cost₂, hb, hrest, rfl⟩ := hyields.1 hy
    rw [Cost.add_steps] at hfuel
    rw [bind_apply]
    rcases h.complete hs hb (by omega) with
      ⟨a, s₁, n₁, hx, hab, hn₁, hspends₁⟩ | ⟨hfull, failure, s₁, hx, hlimit⟩
    · rw [hx]
      have hs₁ := (h.sound hs hx).1
      rcases (hf a b hab).complete hs₁ hrest (by omega) with
        ⟨value, s', n₂, heq, hvalue, hn₂, hspends₂⟩ | ⟨hfull, hlimit⟩
      · refine .inl ⟨value, s', n₁ + n₂, heq, hvalue, ?_, hspends₁.trans hspends₂⟩
        exact Nat.add_le_add hn₁ hn₂
      · exact .inr ⟨fun hfits => hfull (hfits.right hspends₁ hn₁), hlimit⟩
    · rw [hx]
      exact .inr ⟨fun hfits => hfull hfits.left, failure, s₁, rfl, hlimit⟩

/-- Counting what happens changes nothing. -/
theorem count {f : Meter → Meter} {g : Counters → Counters} (hf : ∀ meter, f meter = meter.count g)
    (h : Mirrors decls fuel x R yields) : Mirrors decls fuel (tick f >>= fun _ => x) R yields where
  sound := by
    intro s s' value hs heq
    have heq : x { s with meter := f s.meter } = .ok value s' := heq
    rw [hf] at heq
    obtain ⟨hs', value', cost, hvalue, hy, hspent⟩ :=
      h.sound (s := { s with meter := s.meter.count g }) (hs.of_memo_eq rfl) heq
    refine ⟨hs', value', cost, hvalue, hy, fun hmemo => ?_⟩
    obtain ⟨hfits, hspends⟩ := hspent hmemo
    exact ⟨⟨hfits.depth, hfits.steps⟩, hspends.steps, hspends.budget, hspends.frames, hspends.memo⟩
  failing := by
    intro s s' halt hs heq
    exact h.failing (s := { s with meter := f s.meter }) (hs.of_memo_eq rfl) heq
  complete := by
    intro s value' cost hs hy hfuel
    show (∃ value s' n, x { s with meter := f s.meter } = .ok value s' ∧ _) ∨
      _ ∧ ∃ failure s', x { s with meter := f s.meter } = _ ∧ _
    rw [hf]
    rcases h.complete (s := { s with meter := s.meter.count g }) (hs.of_memo_eq rfl) hy hfuel with
      ⟨value, s', n, heq, hvalue, hn, hspends⟩ | ⟨hfull, hlimit⟩
    · exact .inl ⟨value, s', n, heq, hvalue, hn, hspends.steps, hspends.budget, hspends.frames,
        hspends.memo⟩
    · exact .inr ⟨fun hfits => hfull ⟨hfits.depth, hfits.steps⟩, hlimit⟩

theorem leaving (rule : String) (h : Mirrors decls fuel x R yields) :
    Mirrors decls fuel (Eval.leaving rule x) R yields where
  sound := by
    intro s s' value hs heq
    obtain ⟨o, hx, ho⟩ := leaving_eq_lift (o := .ok value) heq
    cases o with
    | ok value =>
      cases ho
      exact h.sound hs hx
    | error failure => cases ho
  failing := by
    intro s s' halt hs heq
    obtain ⟨halt', hx⟩ := leaving_eq_error heq
    exact h.failing hs hx
  complete := by
    intro s value' cost hs hy hfuel
    rcases h.complete hs hy hfuel with ⟨value, s', n, hx, hrest⟩ | ⟨hfull, failure, s', hx, hlimit⟩
    · exact .inl ⟨value, s', n, leaving_of_eq_lift (o := .ok value) hx, hrest⟩
    · refine .inr ⟨hfull, failure.leaving rule, s', leaving_of_eq_lift hx, ?_⟩
      rw [Failure.hitLimit_leaving, hlimit]

/-- In a frame of its own, evaluation mirrors the same values, at the cost with that frame. -/
theorem inFrame (rule : String) (h : Mirrors decls fuel x R yields) :
    Mirrors decls fuel (pushFrame rule >>= fun _ => thenPop x) R
      (fun y cost => ∃ cost', yields y cost' ∧ cost = cost'.nested) where
  sound := by
    intro s s' value hs heq
    rw [bind_apply] at heq
    rcases pushFrame_cases rule s with ⟨hroom, s₁, hpush, hpushed⟩ | ⟨-, failure, hpush, -⟩
    · rw [hpush] at heq
      obtain ⟨s₂, hx, rfl⟩ := thenPop_eq_lift (o := .ok value) heq
      obtain ⟨hs₂, value', cost, hvalue, hy, hspent⟩ := h.sound (hs.of_memo_eq hpushed.memo) hx
      refine ⟨hs₂.of_memo_eq rfl, value', cost.nested, hvalue, ⟨cost, hy, rfl⟩, fun hmemo => ?_⟩
      obtain ⟨hfits, hspends⟩ := hspent (hpushed.memo.trans hmemo)
      exact ⟨hpushed.fits_nested hroom hfits, hpushed.spends hspends⟩
    · rw [hpush] at heq
      cases heq
  failing := by
    intro s s' halt hs heq
    rw [bind_apply] at heq
    rcases pushFrame_cases rule s with ⟨-, s₁, hpush, hpushed⟩ | ⟨-, failure, hpush, -⟩
    · rw [hpush] at heq
      obtain ⟨s₂, hx, rfl⟩ := thenPop_eq_error heq
      obtain ⟨hs₂, hnone⟩ := h.failing (hs.of_memo_eq hpushed.memo) hx
      exact ⟨hs₂.of_memo_eq rfl, fun hmemo => hnone (hpushed.memo.trans hmemo)⟩
    · rw [hpush] at heq
      cases heq
      exact ⟨hs, id⟩
  complete := by
    rintro s y _ hs ⟨cost, hy, rfl⟩ hfuel
    rw [bind_apply]
    rcases pushFrame_cases rule s with ⟨hroom, s₁, hpush, hpushed⟩ | ⟨hfull, failure, hpush, hlimit⟩
    · rw [hpush]
      rcases h.complete (hs.of_memo_eq hpushed.memo) hy hfuel with
        ⟨value, s₂, n, hx, hvalue, hn, hspends⟩ | ⟨hover, failure, s₂, hx, hlimit⟩
      · exact .inl ⟨value, _, n, thenPop_of_eq_lift (o := .ok value) hx, hvalue, hn,
          hpushed.spends hspends⟩
      · exact .inr ⟨fun hfits => hover (hpushed.fits_of_nested hfits), failure, _,
          thenPop_of_eq_lift hx, hlimit⟩
    · rw [hpush]
      refine .inr ⟨fun hfits => ?_, failure, s, rfl, hlimit⟩
      have hdepth : cost.depth + 1 ≤ _ := hfits.depth
      omega

/-- The step that evaluation begins with takes a unit of fuel. -/
theorem spendStep (h : Mirrors decls fuel x R yields) :
    Mirrors decls (fuel + 1) (spendStep >>= fun _ => x) R
      (fun y cost => ∃ cost', yields y cost' ∧ cost = cost'.step) where
  sound := by
    intro s s' value hs heq
    rw [bind_apply] at heq
    rcases spendStep_cases s with ⟨s₁, hspend, hspends₁, hfits₁⟩ | ⟨-, failure, s₁, hspend, -⟩
    · rw [hspend] at heq
      obtain ⟨hs', value', cost, hvalue, hy, hspent⟩ := h.sound (hs.of_memo_eq hspends₁.memo) heq
      refine ⟨hs', value', cost.step, hvalue, ⟨cost, hy, rfl⟩, fun hmemo => ?_⟩
      obtain ⟨hfits, hspends⟩ := hspent (hspends₁.memo.trans hmemo)
      rw [cost.step_eq]
      exact ⟨hfits₁.add hspends₁ hfits, hspends₁.trans hspends⟩
    · rw [hspend] at heq
      cases heq
  failing := by
    intro s s' halt hs heq
    rw [bind_apply, spendStep_apply] at heq
    cases hcheck : s.meter.step.check with
    | ok _ =>
      rw [hcheck] at heq
      exact h.failing (s := { s with meter := s.meter.step }) (hs.of_memo_eq rfl) heq
    | error failure =>
      rw [hcheck] at heq
      cases heq
      exact ⟨hs.of_memo_eq rfl, id⟩
  complete := by
    rintro s y _ hs ⟨cost, hy, rfl⟩ hfuel
    rw [bind_apply]
    rcases spendStep_cases s with ⟨s₁, hspend, hspends₁, -⟩ | ⟨hnone, failure, s₁, hspend, hlimit⟩
    · rw [hspend, cost.step_eq]
      rcases h.complete (hs.of_memo_eq hspends₁.memo) hy (Nat.le_of_succ_le_succ hfuel) with
        ⟨value, s', n, hx, hvalue, hn, hspends⟩ | ⟨hover, hlimit⟩
      · refine .inl ⟨value, s', 1 + n, hx, hvalue, ?_, hspends₁.trans hspends⟩
        show 1 + n ≤ 1 + cost.steps
        omega
      · exact .inr ⟨fun hfits => hover (hfits.right hspends₁ (Nat.le_refl _)), hlimit⟩
    · rw [hspend]
      refine .inr ⟨fun hfits => hnone ?_, failure, s₁, rfl, hlimit⟩
      rw [cost.step_eq] at hfits
      exact hfits.left

end Mirrors

/-! ## Reductions that mirror -/

/-- `runs` mirrors what the normal form of a rule yields on the normal form of its input. -/
def RunsMirror (decls : Declarations) (fuel : Nat) (runs : Rule → Term → Eval Session Term) : Prop :=
  ∀ {rule : Rule} {input : Term}, rule.Plain → input.WellKeyed →
    Mirrors decls fuel (runs rule input) Term.Canonical
      (rule.normal.Yields decls.normal input.normal)

variable {runs : Rule → Term → Eval Session Term} {rule : Rule} {input : Term}

theorem admitFeedback_normal (rule : Rule) (input next : Term) :
    rule.normal.admitFeedback input.normal next.normal = rule.admitFeedback input next := by
  obtain ⟨name, arms, terminal, recursion⟩ := rule
  rw [Rule.admitFeedback, Rule.admitFeedback, Term.size_normal, Term.size_normal]
  rfl

/-- A correct result is recorded, and stays the result. -/
theorem remember_mirrors {output output' : Term}
    (hrecord : MemoRecord.Correct decls ⟨rule, input, output⟩) (h : output.Canonical output') :
    Mirrors decls fuel (remember rule input output >>= fun _ => pure output) Term.Canonical
      (fun y cost => y = output' ∧ cost = 0) where
  sound hs heq := by
    cases heq
    refine ⟨hs.remember hrecord, output', 0, h, ⟨rfl, rfl⟩, fun hmemo => ?_⟩
    refine ⟨⟨Nat.zero_le _, fun _ _ => Nat.zero_le _⟩, rfl, rfl, rfl, ?_⟩
    show Option.map _ _ = none
    rw [hmemo, Option.map_none]
  failing hs heq := by cases heq
  complete hs hy _ := by
    obtain ⟨rfl, rfl⟩ := hy
    exact .inl ⟨output, _, 0, rfl, h, Nat.le_refl 0, rfl, rfl, rfl, rfl⟩

/-- A rule whose result is not known is run, and its result recorded. -/
theorem ran_mirrors (hruns : RunsMirror decls fuel runs) (hrule : rule.Plain)
    (hinput : input.WellKeyed) :
    Mirrors decls fuel
      (Eval.leaving rule.name (pushFrame rule.name >>= fun _ => thenPop (runs rule input)) >>=
        fun output => remember rule input output >>= fun _ => pure output)
      Term.Canonical
      (fun y cost => ∃ cost', rule.normal.Yields decls.normal input.normal y cost' ∧
        cost = cost'.nested) := by
  have hbelow := ((hruns hrule hinput).inFrame rule.name).leaving rule.name
  refine hbelow.yielded.bind (Y := fun b y cost => y = b ∧ cost = 0) ?_ ?_
  · rintro output _ ⟨⟨houtput, rfl⟩, _, cost, hy, -⟩
    exact remember_mirrors ⟨hrule, hinput, houtput, cost, hy⟩ ⟨houtput, rfl⟩
  · intro y cost
    constructor
    · intro hy
      exact ⟨y, cost, 0, hy, ⟨rfl, rfl⟩, (add_zero cost).symm⟩
    · rintro ⟨_, cost₁, _, hy, ⟨rfl, rfl⟩, rfl⟩
      rwa [add_zero]

/-- Entering a rule mirrors what it yields, whether its result is known or not. -/
theorem enter_mirrors (hruns : RunsMirror decls fuel runs) (hrule : rule.Plain)
    (hinput : input.WellKeyed) :
    Mirrors decls fuel (enter runs rule input) Term.Canonical
      (fun y cost => ∃ cost', rule.normal.Yields decls.normal input.normal y cost' ∧
        cost = cost'.nested) := by
  have hran := ran_mirrors hruns hrule hinput
  refine ⟨?_, ?_, ?_⟩
  · intro s s' value hs heq
    cases hknown : s.memo.bind (·.get? rule input) with
    | some known =>
      rw [enter_eq_recalled hknown] at heq
      cases heq
      obtain ⟨hvalue, cost, hy⟩ := hs.known hrule hinput hknown
      refine ⟨hs.of_memo_eq rfl, _, _, ⟨hvalue, rfl⟩, ⟨cost, hy, rfl⟩, fun hmemo => ?_⟩
      rw [hmemo] at hknown
      cases hknown
    | none =>
      rw [enter_eq_ran hknown] at heq
      exact hran.sound hs heq
  · intro s s' halt hs heq
    cases hknown : s.memo.bind (·.get? rule input) with
    | some known =>
      rw [enter_eq_recalled hknown] at heq
      cases heq
    | none =>
      rw [enter_eq_ran hknown] at heq
      exact hran.failing hs heq
  · intro s y cost hs hyields hfuel
    cases hknown : s.memo.bind (·.get? rule input) with
    | some known =>
      -- what is known is what is yielded, as there is only one such value
      obtain ⟨hvalue, cost', hy⟩ := hs.known hrule hinput hknown
      obtain ⟨cost, hy', rfl⟩ := hyields
      obtain rfl := hy.unique hy'
      rw [enter_eq_recalled hknown]
      exact .inl ⟨known, _, 0, rfl, ⟨hvalue, rfl⟩, Nat.zero_le _, (Session.Spends.refl s).count _⟩
    | none =>
      rw [enter_eq_ran hknown]
      exact hran.complete hs hyields hfuel

/-- A term that is fed back is admitted if its normal form is. -/
theorem admit_mirrors (rule : Rule) (input next : Term) :
    Mirrors decls fuel (Eval.lift (rule.admitFeedback input next)) (fun _ _ => True)
      (fun (_ : Unit) cost =>
        rule.normal.admitFeedback input.normal next.normal = .ok () ∧ cost = 0) := by
  rw [admitFeedback_normal]
  cases rule.admitFeedback input next with
  | ok value => exact .pure (b := ()) trivial (by simp)
  | error failure => exact .throw (by simp)

theorem answer_self_mirrors (hruns : RunsMirror decls fuel runs) (hrule : rule.Plain) {next : Term}
    (hnext : next.WellKeyed) :
    Mirrors decls fuel (answer runs rule input (.self next)) Term.Canonical
      ((Request.self next.normal).Yields decls.normal rule.normal input.normal) := by
  refine (admit_mirrors rule input next).bind (fun _ _ _ => enter_mirrors hruns hrule hnext) ?_
  intro y cost
  rw [Request.yields_self]
  constructor
  · rintro ⟨hfeedback, henters⟩
    exact ⟨(), 0, cost, ⟨hfeedback, rfl⟩, henters, (zero_add cost).symm⟩
  · rintro ⟨_, _, cost₂, ⟨hfeedback, rfl⟩, henters, rfl⟩
    rw [zero_add]
    exact ⟨hfeedback, henters⟩

theorem answer_call_mirrors (hruns : RunsMirror decls fuel runs) {called : Rule} {term : Term}
    (hcalled : called.Plain) (hterm : term.WellKeyed) :
    Mirrors decls fuel (answer runs rule input (.call called term)) Term.Canonical
      ((Request.call called.normal term.normal).Yields decls.normal rule.normal input.normal) :=
  (enter_mirrors hruns hcalled hterm).congr Request.yields_call.symm

/-- To be carried out as another plan is yielded is a way to relate plans. -/
def simulation (decls : Declarations) (fuel : Nat) {runs : Rule → Term → Eval Session Term}
    (hruns : RunsMirror decls fuel runs) (rule : Rule) (hrule : rule.Plain) (input : Term) :
    Plan.Simulation where
  Rel R p q := Mirrors decls fuel (p.exec observe (answer runs rule input)) R
    (q.Yields decls.normal rule.normal input.normal)
  done h := .pure h Plan.yields_done
  fail failure failure' := .throw Plan.not_yields_fail
  note n h := by
    cases n
    · exact (h.congr Plan.yields_note.symm).count fun _ => rfl
    · exact (h.congr Plan.yields_note.symm).count fun _ => rfl
  bind h hf := by
    rw [Plan.exec_bind]
    exact h.bind hf Plan.yields_bind
  self hnext := by
    show Mirrors decls fuel (answer runs rule input _ >>= pure) _ _
    rw [bind_pure]
    exact (answer_self_mirrors hruns hrule hnext).congr Plan.yields_ask_done.symm
  call hcalled hterm := by
    show Mirrors decls fuel (answer runs rule input _ >>= pure) _ _
    rw [bind_pure]
    exact (answer_call_mirrors hruns hcalled hterm).congr Plan.yields_ask_done.symm
  reorder h hperm :=
    { sound := fun hs heq => by
        obtain ⟨hs', bs, cost, hvalue, hy, hspent⟩ := h.sound hs heq
        obtain ⟨cs, hcs, hsame⟩ := hy.mapEach_perm hperm
        exact ⟨hs', cs, cost, ⟨bs, hvalue, hsame, hcs.map_fst⟩, hcs, hspent⟩
      failing := h.failing
      complete := fun hs hy hfuel => by
        obtain ⟨bs, hbs, hsame⟩ := hy.mapEach_perm hperm.symm
        rcases h.complete hs hbs hfuel with ⟨value, s', n, heq, hvalue, hrest⟩ | hlimit
        · exact .inl ⟨value, s', n, heq, ⟨bs, hvalue, hsame.symm, hy.map_fst⟩, hrest⟩
        · exact .inr hlimit }

/-- Going on after a step mirrors what comes of its normal form in the end. -/
theorem proceed_mirrors (hruns : RunsMirror decls fuel runs) (hrule : rule.Plain)
    {step step' : Step} (h : step.Canonical step') :
    Mirrors decls fuel (proceed runs rule input step) Term.Canonical
      (step'.Yields decls.normal rule.normal input.normal) := by
  cases h with
  | done hresult => exact .pure hresult .rfl
  | again hnext =>
    obtain ⟨hnext, rfl⟩ := hnext
    have hrest := (hruns hrule hnext).count (f := Meter.fedBack) fun _ => rfl
    refine (admit_mirrors rule input _).bind (fun _ _ _ => hrest) ?_
    intro y cost
    constructor
    · rintro ⟨hfeedback, hy⟩
      exact ⟨(), 0, cost, ⟨hfeedback, rfl⟩, hy, (zero_add cost).symm⟩
    · rintro ⟨_, _, cost₂, ⟨hfeedback, rfl⟩, hy, rfl⟩
      rw [zero_add]
      exact ⟨hfeedback, hy⟩

/-- With a memo of correct records or without one, a run of a plain rule mirrors what its
normal form yields. -/
theorem run_mirrors (hdecls : decls.WellKeyed) (fuel : Nat) :
    RunsMirror decls fuel (run decls fuel) := by
  induction fuel with
  | zero =>
    intro rule input _ _
    refine ⟨fun hs heq => ?_, fun hs heq => ?_, fun hs hy hfuel => ?_⟩
    · cases heq
    · cases heq
      exact ⟨hs, id⟩
    · have hpos := Rule.Settles.steps_pos hy
      omega
  | succ fuel ih =>
    intro rule input hrule hinput
    have hstep := (simulation decls fuel ih rule hrule input).step hdecls hrule hinput
    have hgo : ∀ step step', step.Canonical step' →
        Mirrors decls fuel (proceed (run decls fuel) rule input step) Term.Canonical
          (step'.Yields decls.normal rule.normal input.normal) :=
      fun _ _ h => proceed_mirrors ih hrule h
    have hbody := hstep.bind hgo (fun {y cost} => Iff.rfl)
    refine hbody.spendStep.congr ?_
    intro y cost
    rw [Rule.yields_iff_step]
    constructor
    · rintro ⟨_, ⟨step, cost₁, cost₂, hplan, hy, rfl⟩, rfl⟩
      exact ⟨step, cost₁, cost₂, hplan, hy, Cost.step_add cost₁ cost₂⟩
    · rintro ⟨step, cost₁, cost₂, hplan, hy, rfl⟩
      exact ⟨_, ⟨step, cost₁, cost₂, hplan, hy, rfl⟩, (Cost.step_add cost₁ cost₂).symm⟩

end Reduction

/-! ## The end of a reduction -/

open Reduction

variable {decls : Declarations} {rule : Rule} {input : Term} {s s' : Session}

/-- A reduction keeps a correct memo correct, however it ends, and starts none. -/
theorem Rule.Ends.correct {o : Outcome Term} (h : rule.Ends decls input s o s') (hidle : s.Idle)
    (hdecls : decls.WellKeyed) (hrule : rule.Plain) (hinput : input.WellKeyed) (hs : s.Correct decls) :
    s'.Correct decls ∧ (s.memo = none → s'.memo = none) := by
  rcases h.vetted hidle with ⟨failure, -, -, rfl⟩ | ⟨-, fuel, h⟩
  · exact ⟨hs, id⟩
  · have henter := enter_mirrors (run_mirrors hdecls fuel) hrule hinput
    cases o with
    | ok value =>
      obtain ⟨hs', _, _, -, -, hspent⟩ := henter.sound hs h
      exact ⟨hs', fun hmemo => (hspent hmemo).2.memo⟩
    | error failure => exact henter.failing hs h

/-- What a reduction comes to has the normal form that is yielded on normal forms. -/
theorem Rule.Ends.yields {value : Term} (h : rule.Ends decls input s (.ok value) s') (hidle : s.Idle)
    (hdecls : decls.WellKeyed) (hrule : rule.Plain) (hinput : input.WellKeyed) (hs : s.Correct decls) :
    rule.vet decls input = .ok () ∧ value.WellKeyed ∧
      ∃ cost, rule.normal.Yields decls.normal input.normal value.normal cost ∧
        (s.memo = none → cost.nested.Fits s) := by
  rcases h.vetted hidle with ⟨failure, -, heq, -⟩ | ⟨hvet, fuel, h⟩
  · cases heq
  · have henter := enter_mirrors (run_mirrors hdecls fuel) hrule hinput
    obtain ⟨-, _, _, ⟨hvalue, rfl⟩, ⟨cost, hy, rfl⟩, hspent⟩ := henter.sound hs h
    exact ⟨hvet, hvalue, cost, hy, fun hmemo => (hspent hmemo).1⟩

/-- What is yielded on normal forms is the normal form of what a reduction comes to, unless
it reaches a limit that the cost without a memo exceeds. -/
theorem Rule.Yields.ends {y : Term} {cost : Cost}
    (h : rule.normal.Yields decls.normal input.normal y cost) (hvet : rule.vet decls input = .ok ())
    (hidle : s.Idle) (hdecls : decls.WellKeyed) (hrule : rule.Plain) (hinput : input.WellKeyed)
    (hs : s.Correct decls) :
    (∃ value s', rule.Ends decls input s (.ok value) s' ∧ value.Canonical y) ∨
      ¬ cost.nested.Fits s ∧ ∃ o s', rule.Ends decls input s o s' ∧ o.hitLimit = true := by
  have henter := enter_mirrors (run_mirrors hdecls cost.steps) hrule hinput
  rcases henter.complete hs ⟨cost, h, rfl⟩ (Nat.le_refl _) with
    ⟨value, s', -, heq, hvalue, -⟩ | ⟨hfull, failure, s', heq, hlimit⟩
  · exact .inl ⟨value, s', ends_of_enter (o := .ok value) hidle hvet heq, hvalue⟩
  · exact .inr ⟨hfull, .error failure, s', ends_of_enter hidle hvet heq, hlimit⟩

end Reshape
