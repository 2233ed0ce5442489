import Reshape.Proofs.Reduction.Limits
import Reshape.Proofs.Template.Mapping

/-!
# Results without a memo

A rule yields a value at a cost if its run settles so where there is no memo
(`Rule.Yields`). Without a memo, nothing that a plan asks for depends on what was
asked for before: a plan is followed by another one at the sum of their costs
(`Plan.yields_bind`), and fields that are mapped in another order come to the same
(`Plan.Yields.mapEach_perm`).
-/

namespace Reshape

variable {decls : Declarations}

/-! ## No memo appears -/

mutual

theorem Rule.Settles.memo_eq_none {rule : Rule} {input : Term} {memo memo' : Option Memo}
    {o : Outcome Term} {cost : Cost} (h : Rule.Settles decls rule input memo o memo' cost)
    (hmemo : memo = none) : memo' = none := by
  match h with
  | .failed hplan => exact hplan.memo_eq_none hmemo
  | .done hplan => exact hplan.memo_eq_none hmemo
  | .refused hplan _ => exact hplan.memo_eq_none hmemo
  | .again hplan _ hrest => exact hrest.memo_eq_none (hplan.memo_eq_none hmemo)

theorem Rule.Enters.memo_eq_none {rule : Rule} {input : Term} {memo memo' : Option Memo}
    {o : Outcome Term} {cost : Cost} (h : Rule.Enters decls rule input memo o memo' cost)
    (hmemo : memo = none) : memo' = none := by
  match h with
  | .recalled _ => exact hmemo
  | .ran _ hruns => rw [hruns.memo_eq_none hmemo, Option.map_none]
  | .failed _ hruns => exact hruns.memo_eq_none hmemo

theorem Request.Settles.memo_eq_none {rule : Rule} {input : Term} {request : Request}
    {memo memo' : Option Memo} {o : Outcome Term} {cost : Cost}
    (h : Request.Settles decls rule input request memo o memo' cost) (hmemo : memo = none) :
    memo' = none := by
  match h with
  | .refused _ => exact hmemo
  | .self _ henters => exact henters.memo_eq_none hmemo
  | .call henters => exact henters.memo_eq_none hmemo

theorem Plan.Settles.memo_eq_none {rule : Rule} {input : Term} {α : Type} {plan : Plan α}
    {memo memo' : Option Memo} {o : Outcome α} {cost : Cost}
    (h : Plan.Settles decls rule input plan memo o memo' cost) (hmemo : memo = none) :
    memo' = none := by
  match h with
  | .done _ => exact hmemo
  | .fail _ => exact hmemo
  | .note hrest => exact hrest.memo_eq_none hmemo
  | .failed hanswer => exact hanswer.memo_eq_none hmemo
  | .answered hanswer hrest => exact hrest.memo_eq_none (hanswer.memo_eq_none hmemo)

end

/-! ## Values and costs -/

/-- Carried out for a rule on an input, the plan comes to a value. -/
def Plan.Yields (decls : Declarations) (rule : Rule) (input : Term) {α : Type} (plan : Plan α)
    (value : α) (cost : Cost) : Prop :=
  plan.Settles decls rule input none (.ok value) none cost

/-- What a step of a rule on an input asks for has an answer. -/
def Request.Yields (decls : Declarations) (rule : Rule) (input : Term) (request : Request)
    (answer : Term) (cost : Cost) : Prop :=
  request.Settles decls rule input none (.ok answer) none cost

/-- The run of the rule comes to a result. -/
def Rule.Yields (decls : Declarations) (rule : Rule) (input result : Term) (cost : Cost) : Prop :=
  rule.Settles decls input none (.ok result) none cost

/-- What comes of the step of a rule on an input in the end. -/
def Step.Yields (decls : Declarations) (rule : Rule) (input : Term) :
    Step → Term → Cost → Prop
  | .done result, value, cost => value = result ∧ cost = 0
  | .again next, value, cost =>
    rule.admitFeedback input next = .ok () ∧ rule.Yields decls next value cost

namespace Plan

variable {rule : Rule} {input : Term} {α β : Type} {cost : Cost}

theorem yields_done {x value : α} :
    (done x).Yields decls rule input value cost ↔ value = x ∧ cost = 0 := by
  constructor
  · intro h
    cases h
    exact ⟨rfl, rfl⟩
  · rintro ⟨rfl, rfl⟩
    exact .done value

theorem not_yields_fail {failure : Failure} {value : α} :
    ¬ (fail failure).Yields decls rule input value cost := by
  intro h
  cases h

theorem yields_note {n : Note} {rest : Plan α} {value : α} :
    (note n rest).Yields decls rule input value cost ↔ rest.Yields decls rule input value cost := by
  constructor
  · intro h
    cases h with
    | note hrest => exact hrest
  · exact .note

theorem yields_ask {request : Request} {next : Term → Plan α} {value : α} :
    (ask request next).Yields decls rule input value cost ↔
      ∃ answer cost₁ cost₂, request.Yields decls rule input answer cost₁ ∧
        (next answer).Yields decls rule input value cost₂ ∧ cost = cost₁ + cost₂ := by
  constructor
  · intro h
    cases h with
    | answered hanswer hrest =>
      obtain rfl := hanswer.memo_eq_none rfl
      exact ⟨_, _, _, hanswer, hrest, rfl⟩
  · rintro ⟨answer, cost₁, cost₂, hanswer, hrest, rfl⟩
    exact .answered hanswer hrest

/-- A request and nothing else. -/
theorem yields_ask_done {request : Request} {value : Term} :
    (ask request done).Yields decls rule input value cost ↔
      request.Yields decls rule input value cost := by
  rw [yields_ask]
  constructor
  · rintro ⟨answer, cost₁, cost₂, hanswer, hrest, rfl⟩
    obtain ⟨rfl, rfl⟩ := yields_done.1 hrest
    rwa [add_zero]
  · intro h
    exact ⟨value, cost, 0, h, yields_done.2 ⟨rfl, rfl⟩, (add_zero cost).symm⟩

theorem yields_bind {plan : Plan α} {f : α → Plan β} {value : β} :
    (plan >>= f).Yields decls rule input value cost ↔
      ∃ x cost₁ cost₂, plan.Yields decls rule input x cost₁ ∧
        (f x).Yields decls rule input value cost₂ ∧ cost = cost₁ + cost₂ := by
  induction plan generalizing cost with
  | done x =>
    rw [done_bind]
    constructor
    · intro h
      exact ⟨x, 0, cost, yields_done.2 ⟨rfl, rfl⟩, h, (zero_add cost).symm⟩
    · rintro ⟨_, cost₁, cost₂, hx, h, rfl⟩
      obtain ⟨rfl, rfl⟩ := yields_done.1 hx
      rwa [zero_add]
  | fail failure =>
    rw [fail_bind]
    constructor
    · intro h
      exact absurd h not_yields_fail
    · rintro ⟨x, cost₁, cost₂, hx, -⟩
      exact absurd hx not_yields_fail
  | note n rest ih =>
    rw [note_bind, yields_note, ih]
    simp only [yields_note]
  | ask request next ih =>
    rw [ask_bind, yields_ask]
    constructor
    · rintro ⟨answer, cost₁, cost₂, hanswer, hrest, rfl⟩
      obtain ⟨x, cost₂, cost₃, hx, h, rfl⟩ := (ih answer).1 hrest
      exact ⟨x, cost₁ + cost₂, cost₃, yields_ask.2 ⟨answer, cost₁, cost₂, hanswer, hx, rfl⟩, h,
        (add_assoc _ _ _).symm⟩
    · rintro ⟨x, _, cost₃, hask, h, rfl⟩
      obtain ⟨answer, cost₁, cost₂, hanswer, hx, rfl⟩ := yields_ask.1 hask
      exact ⟨answer, cost₁, cost₂ + cost₃, hanswer, (ih answer).2 ⟨x, cost₂, cost₃, hx, h, rfl⟩,
        add_assoc _ _ _⟩

section

variable {g : Entry Term → Plan (Option (Term × Modifiers))} {ys zs : List (Entry Term)} {bs : Mapped}

theorem yields_mapEach_cons {y : Entry Term} :
    (mapEach g (y :: ys)).Yields decls rule input bs cost ↔
      ∃ new rest cost₁ cost₂, (g y).Yields decls rule input new cost₁ ∧
        (mapEach g ys).Yields decls rule input rest cost₂ ∧ bs = (y, new) :: rest ∧
        cost = cost₁ + cost₂ := by
  rw [mapEach, yields_bind]
  constructor
  · rintro ⟨new, cost₁, _, hnew, htail, rfl⟩
    obtain ⟨rest, cost₂, _, hrest, hdone, rfl⟩ := yields_bind.1 htail
    obtain ⟨rfl, rfl⟩ := yields_done.1 hdone
    rw [add_zero]
    exact ⟨new, rest, cost₁, cost₂, hnew, hrest, rfl, rfl⟩
  · rintro ⟨new, rest, cost₁, cost₂, hnew, hrest, rfl, rfl⟩
    refine ⟨new, cost₁, cost₂, hnew, yields_bind.2 ?_, rfl⟩
    exact ⟨rest, cost₂, 0, hrest, yields_done.2 ⟨rfl, rfl⟩, (add_zero cost₂).symm⟩

theorem Yields.map_fst (h : (mapEach g ys).Yields decls rule input bs cost) :
    bs.map (·.1) = ys := by
  induction ys generalizing bs cost with
  | nil =>
    obtain ⟨rfl, -⟩ := yields_done.1 h
    rfl
  | cons y ys ih =>
    obtain ⟨new, rest, cost₁, cost₂, -, hrest, rfl, rfl⟩ := yields_mapEach_cons.1 h
    rw [List.map_cons, ih hrest]

/-- Fields that are mapped in another order become what they became, at the same cost. -/
theorem Yields.mapEach_perm (h : (mapEach g ys).Yields decls rule input bs cost)
    (hperm : ys.Perm zs) : ∃ cs, (mapEach g zs).Yields decls rule input cs cost ∧ bs.Perm cs := by
  induction hperm generalizing bs cost with
  | nil => exact ⟨bs, h, .refl bs⟩
  | cons y _ ih =>
    obtain ⟨new, rest, cost₁, cost₂, hnew, hrest, rfl, rfl⟩ := yields_mapEach_cons.1 h
    obtain ⟨cs, hcs, hperm⟩ := ih hrest
    exact ⟨(y, new) :: cs, yields_mapEach_cons.2 ⟨new, cs, cost₁, cost₂, hnew, hcs, rfl, rfl⟩,
      hperm.cons _⟩
  | swap y z ys =>
    obtain ⟨new, _, cost₁, _, hnew, htail, rfl, rfl⟩ := yields_mapEach_cons.1 h
    obtain ⟨new', rest, cost₂, cost₃, hnew', hrest, rfl, rfl⟩ := yields_mapEach_cons.1 htail
    have hz := yields_mapEach_cons.2 ⟨new, rest, cost₁, cost₃, hnew, hrest, rfl, rfl⟩
    refine ⟨(y, new') :: (z, new) :: rest, ?_, .swap _ _ _⟩
    exact yields_mapEach_cons.2 ⟨new', _, cost₂, _, hnew', hz, rfl, add_left_comm _ _ _⟩
  | trans _ _ ih ih' =>
    obtain ⟨cs, hcs, hperm⟩ := ih h
    obtain ⟨ds, hds, hperm'⟩ := ih' hcs
    exact ⟨ds, hds, hperm.trans hperm'⟩

end

end Plan

/-! ## Requests and rules -/

section

variable {rule : Rule} {input result : Term} {cost : Cost}

/-- A rule that is entered without a memo is run. -/
theorem Rule.Enters.yields {memo' : Option Memo}
    (h : rule.Enters decls input none (.ok result) memo' cost) :
    ∃ cost', rule.Yields decls input result cost' ∧ cost = cost'.nested := by
  cases h with
  | recalled hknown => cases hknown
  | ran _ hruns =>
    obtain rfl := hruns.memo_eq_none rfl
    exact ⟨_, hruns, rfl⟩

theorem Rule.Yields.enters (h : rule.Yields decls input result cost) :
    rule.Enters decls input none (.ok result) none cost.nested := by
  have hran : rule.Enters decls input none (.ok result)
      ((none : Option Memo).map (·.insert rule input result)) cost.nested := .ran rfl h
  exact hran

theorem Rule.Yields.unique {result₁ result₂ : Term} {cost₁ cost₂ : Cost}
    (h₁ : rule.Yields decls input result₁ cost₁) (h₂ : rule.Yields decls input result₂ cost₂) :
    result₁ = result₂ := by
  obtain ⟨heq, -⟩ := h₁.enters.unique h₂.enters
  exact Except.ok.inj heq

theorem Request.yields_self {next : Term} :
    (Request.self next).Yields decls rule input result cost ↔
      rule.admitFeedback input next = .ok () ∧
        ∃ cost', rule.Yields decls next result cost' ∧ cost = cost'.nested := by
  constructor
  · intro h
    cases h with
    | self hfeedback henters => exact ⟨hfeedback, henters.yields⟩
  · rintro ⟨hfeedback, cost', hruns, rfl⟩
    exact .self hfeedback hruns.enters

theorem Request.yields_call {called : Rule} {term : Term} :
    (Request.call called term).Yields decls rule input result cost ↔
      ∃ cost', called.Yields decls term result cost' ∧ cost = cost'.nested := by
  constructor
  · intro h
    cases h with
    | call henters => exact henters.yields
  · rintro ⟨cost', hruns, rfl⟩
    exact .call hruns.enters

/-- A rule yields what comes of its step. -/
theorem Rule.yields_iff_step :
    rule.Yields decls input result cost ↔
      ∃ step cost₁ cost₂, (rule.step decls input).Yields decls rule input step cost₁ ∧
        step.Yields decls rule input result cost₂ ∧ cost = cost₁.step + cost₂ := by
  constructor
  · intro h
    cases h with
    | done hplan => exact ⟨_, _, 0, hplan, ⟨rfl, rfl⟩, (add_zero _).symm⟩
    | again hplan hfeedback hrest =>
      obtain rfl := hplan.memo_eq_none rfl
      exact ⟨_, _, _, hplan, ⟨hfeedback, hrest⟩, rfl⟩
  · rintro ⟨step, cost₁, cost₂, hplan, hstep, rfl⟩
    cases step with
    | done value =>
      obtain ⟨rfl, rfl⟩ := hstep
      rw [add_zero]
      exact .done hplan
    | again next => exact .again hplan hstep.1 hstep.2

theorem Rule.Yields.of_done (cost : Cost)
    (h : (rule.step decls input).Yields decls rule input (.done result) cost) :
    rule.Yields decls input result cost.step :=
  yields_iff_step.2 ⟨_, cost, 0, h, ⟨rfl, rfl⟩, (add_zero _).symm⟩

/-- A term that is fed back without a request takes the step before it. -/
theorem Rule.Yields.of_again {next : Term}
    (h : (rule.step decls input).Yields decls rule input (.again next) 0)
    (hfeedback : rule.admitFeedback input next = .ok ()) (hnext : rule.Yields decls next result cost) :
    rule.Yields decls input result cost.step :=
  yields_iff_step.2 ⟨_, 0, cost, h, ⟨hfeedback, hnext⟩, cost.step_eq⟩

end

end Reshape
