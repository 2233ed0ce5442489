import Reshape.Proofs.Reduction.Limits
import Reshape.Proofs.Template.Requests
import Reshape.Proofs.Term.Size

/-!
# Termination

A valid rule comes to an end on every term if neither it nor a rule inside it is bounded
(`Rule.unbounded_terminates`). A called rule has fewer parts than its caller, and a term
that is fed back is smaller than the input, so the runs that a run asks for are smaller in
the lexicographic order of parts and size. A rule that calls no rule nests only through
terms fed back, so no deeper than the input is large.
-/

namespace Reshape

open Reduction

variable {α : Type} {decls : Declarations} {rule called : Rule} {input next : Term}
  {request : Request} {plan : Plan α}

/-- Evaluation without limits comes to an outcome, at a cost as described, and that is no
reached limit. -/
def Finishes {α : Type} (settles : Outcome α → Option Memo → Cost → Prop) (cheap : Cost → Prop) :
    Prop :=
  ∃ o memo' cost, settles o memo' cost ∧ o.hitLimit = false ∧ cheap cost

/-- The cost of a run on an input of this size: where nothing is called, the frames on top
are fewer. -/
def Cost.Shallow (callees : List Rule) (size : Nat) (cost : Cost) : Prop :=
  callees = [] → cost.depth < size

theorem Cost.Shallow.zero (callees : List Rule) (term : Term) :
    (0 : Cost).Shallow callees term.size :=
  fun _ => term.size_pos

theorem Cost.Shallow.add {callees : List Rule} {size : Nat} {a b : Cost} (ha : a.Shallow callees size)
    (hb : b.Shallow callees size) : (a + b).Shallow callees size :=
  fun hnone => Nat.max_lt.2 ⟨ha hnone, hb hnone⟩

/-- A run of the rule on the input finishes, whatever the memo holds. -/
def Rule.Halts (decls : Declarations) (rule : Rule) (input : Term) : Prop :=
  ∀ memo, Finishes (rule.Settles decls input memo) (·.Shallow rule.callees input.size)

theorem Cause.hitLimit_of_blamesTerm {cause : Cause} (h : cause.blamesTerm = true) :
    cause.hitLimit = false := by
  cases cause <;> first | rfl | cases h

/-- A fed back term that is not admitted is no reached limit. -/
theorem Rule.admitFeedback_cases (rule : Rule) (input next : Term) :
    (∃ failure, rule.admitFeedback input next = .error failure ∧ failure.hitLimit = false) ∨
      rule.admitFeedback input next = .ok () ∧
        (rule.recursion = .shrinking → next.size < input.size) := by
  unfold admitFeedback
  by_cases hgrows : (decide (rule.recursion = .shrinking) && decide (input.size ≤ next.size)) = true
  · rw [if_pos hgrows]
    exact .inl ⟨_, rfl, rfl⟩
  · rw [if_neg hgrows]
    refine .inr ⟨rfl, fun hshrinking => ?_⟩
    simpa [hshrinking] using hgrows

/-- A rule that is valid and not bounded re-enters itself only by shrinking. -/
theorem Rule.shrinking_of_isRecursive (hvalid : rule.validate = .ok ())
    (hunbounded : rule.recursion ≠ .bounded) (hrecursive : rule.isRecursive = true) :
    rule.recursion = .shrinking := by
  have hdeclared := (Rule.validate_eq_ok hvalid).2 hrecursive
  cases hkind : rule.recursion with
  | forbidden => exact absurd hkind hdeclared
  | shrinking => rfl
  | bounded => exact absurd hkind hunbounded

/-- Applying a rule takes one frame more than running it. -/
theorem Rule.Halts.enters (h : rule.Halts decls input) (memo : Option Memo) :
    Finishes (rule.Enters decls input memo) fun cost =>
      rule.callees = [] → cost.depth ≤ input.size := by
  cases hknown : memo.bind (·.get? rule input) with
  | some known => exact ⟨.ok known, memo, 0, .recalled hknown, rfl, fun _ => Nat.zero_le _⟩
  | none =>
    obtain ⟨o, memo', cost, hsettles, ho, hshallow⟩ := h memo
    cases o with
    | ok result => exact ⟨.ok result, _, _, .ran hknown hsettles, rfl, fun hnone => hshallow hnone⟩
    | error failure =>
      refine ⟨_, _, _, .failed hknown hsettles, ?_, fun hnone => hshallow hnone⟩
      show (failure.leaving rule.name).hitLimit = false
      rw [Failure.hitLimit_leaving]
      exact ho

/-- What a step asks for finishes if the runs below do: those of the rule itself on smaller
terms, and those of the rules that it calls. -/
theorem Request.finishes (hvalid : rule.validate = .ok ()) (hunbounded : rule.recursion ≠ .bounded)
    (hself : ∀ next : Term, next.size < input.size → rule.Halts decls next)
    (hcall : ∀ called : Rule, called.validate = .ok () → called.Inside rule.parts →
      ∀ term, called.Halts decls term)
    (hrequest : request.Within rule.isRecursive rule.parts) (memo : Option Memo) :
    Finishes (request.Settles decls rule input memo) (·.Shallow rule.callees input.size) := by
  cases request with
  | self next =>
    have hshrinking := Rule.shrinking_of_isRecursive hvalid hunbounded hrequest
    rcases rule.admitFeedback_cases input next with
      ⟨failure, hfeedback, hlimit⟩ | ⟨hfeedback, hsmaller⟩
    · exact ⟨_, _, _, .refused hfeedback, hlimit, .zero _ _⟩
    · have hlt := hsmaller hshrinking
      obtain ⟨o, memo', cost, henters, ho, hdepth⟩ := (hself next hlt).enters memo
      exact ⟨o, memo', cost, .self hfeedback henters, ho,
        fun hnone => Nat.lt_of_le_of_lt (hdepth hnone) hlt⟩
  | call called term =>
    obtain ⟨o, memo', cost, henters, ho, -⟩ := (hcall called hrequest.1 hrequest.2 term).enters memo
    refine ⟨o, memo', cost, .call henters, ho, fun hnone => ?_⟩
    have hmem := hrequest.2.mem_callees
    rw [hnone] at hmem
    cases hmem

/-- A plan finishes if all that it asks for does. -/
theorem Plan.finishes {notes : Note → Prop} {asks : Request → Prop} {gives : α → Prop} {callees : List Rule}
    (h : plan.Abides (·.cause.blamesTerm = true) notes asks gives)
    (hasks : ∀ request, asks request → ∀ memo,
      Finishes (request.Settles decls rule input memo) (·.Shallow callees input.size))
    (memo : Option Memo) :
    Finishes (fun o memo' cost => plan.Settles decls rule input memo o memo' cost ∧
      ∀ value, o = .ok value → gives value) (·.Shallow callees input.size) := by
  induction h generalizing memo with
  | @done value hvalue =>
    refine ⟨_, _, _, ⟨.done value, fun given heq => ?_⟩, rfl, .zero _ _⟩
    cases heq
    exact hvalue
  | @fail failure hfailure =>
    exact ⟨_, _, _, ⟨.fail failure, nofun⟩, Cause.hitLimit_of_blamesTerm hfailure, .zero _ _⟩
  | note _ _ ih =>
    obtain ⟨o, memo', cost, ⟨hsettles, hgives⟩, ho, hshallow⟩ := ih memo
    exact ⟨o, memo', cost, ⟨.note hsettles, hgives⟩, ho, hshallow⟩
  | ask hrequest _ ih =>
    obtain ⟨o, memo₁, cost, hanswer, ho, hshallow⟩ := hasks _ hrequest memo
    cases o with
    | error failure => exact ⟨_, _, _, ⟨.failed hanswer, nofun⟩, ho, hshallow⟩
    | ok term =>
      obtain ⟨o, memo', cost', ⟨hsettles, hgives⟩, ho', hshallow'⟩ := ih term memo₁
      exact ⟨o, memo', _, ⟨.answered hanswer hsettles, hgives⟩, ho', hshallow.add hshallow'⟩

/-- Every run of such a rule comes to an end: by induction on the parts of the rule, and
for one rule on the size of the input. -/
theorem Rule.halts (hvalid : rule.validate = .ok ())
    (hunbounded : ∀ r ∈ rule :: rule.callees, r.recursion ≠ .bounded) (input : Term) :
    rule.Halts decls input := by
  induction hparts : rule.parts.length using Nat.strong_induction_on generalizing rule input with
  | _ n ihparts =>
  induction hsize : input.size using Nat.strong_induction_on generalizing input with
  | _ m ihsize =>
  subst hparts hsize
  have hself : rule.recursion ≠ .bounded := hunbounded rule List.mem_cons_self
  have hcall : ∀ called : Rule, called.validate = .ok () → called.Inside rule.parts →
      ∀ term, called.Halts decls term := by
    intro called hcalled hinside term
    refine ihparts _ hinside.length_lt hcalled (fun r hr => hunbounded r ?_) term rfl
    rcases List.mem_cons.1 hr with rfl | hr
    · exact List.mem_cons_of_mem _ hinside.mem_callees
    · exact List.mem_cons_of_mem _ (hinside.callees_subset hr)
  have hsmaller : ∀ next : Term, next.size < input.size → rule.Halts decls next :=
    fun next hlt => ihsize _ hlt next rfl
  intro memo
  have hstep : (rule.step decls input).SoundStep rule.isRecursive rule.parts := rule.step_sound hvalid
  obtain ⟨o, memo₁, cost, ⟨hplan, hgives⟩, ho, hshallow⟩ := Plan.finishes hstep
    (fun request hrequest => Request.finishes hvalid hself hsmaller hcall hrequest) memo
  match o with
  | .error failure => exact ⟨_, _, _, .failed hplan, ho, hshallow⟩
  | .ok (.done result) => exact ⟨_, _, _, .done hplan, rfl, hshallow⟩
  | .ok (.again next) =>
    have hshrinking := Rule.shrinking_of_isRecursive hvalid hself (hgives _ rfl)
    rcases rule.admitFeedback_cases input next with ⟨failure, hfeedback, hlimit⟩ | ⟨hfeedback, hlt⟩
    · exact ⟨_, _, _, .refused hplan hfeedback, hlimit, hshallow⟩
    · obtain ⟨o, memo', cost', hsettles, ho', hshallow'⟩ := hsmaller next (hlt hshrinking) memo₁
      refine ⟨o, memo', _, .again hplan hfeedback hsettles, ho', fun hnone => ?_⟩
      exact Nat.max_lt.2 ⟨hshallow hnone, Nat.lt_trans (hshallow' hnone) (hlt hshrinking)⟩

/-- A valid rule ends on every term if neither it nor a rule called anywhere inside it is
bounded: without a budget some depth is enough, and any greater one, for an outcome that
is no reached limit. If nothing is called, the size of the term is such a depth. -/
theorem Rule.unbounded_terminates (rule : Rule) (decls : Declarations) (term : Term)
    (memo : Option Memo) (hvalid : rule.validate = .ok ())
    (hunbounded : ∀ r ∈ rule :: rule.callees, r.recursion ≠ .bounded) :
    ∃ depth, (rule.callees = [] → depth ≤ term.size) ∧
      ∀ s : Session, s.Idle → s.memo = memo → s.meter.budget = none → depth ≤ s.frames.maxDepth →
        ∃ o s', rule.Ends decls term s o s' ∧ o.hitLimit = false := by
  have hhalts : rule.Halts decls term := Rule.halts hvalid hunbounded term
  obtain ⟨o, memo', cost, henters, ho, hdepth⟩ := hhalts.enters memo
  refine ⟨cost.depth, hdepth, fun s hidle hmemo hbudget hroom => ?_⟩
  cases hacyclic : decls.needAcyclic term with
  | error failure =>
    refine ⟨_, s, ends_of_vet hidle (vet_of_cyclic hacyclic), ?_⟩
    obtain ⟨cycle, rfl⟩ := Declarations.needAcyclic_eq_error hacyclic
    rfl
  | ok _ =>
    have hvet : rule.vet decls term = .ok () := (vet_of_acyclic hacyclic).trans hvalid
    have hfits : cost.Fits s := by
      refine ⟨?_, fun budget hsome => ?_⟩
      · rw [s.frames.depth_eq, hidle, List.length_nil]
        exact hroom
      · rw [hbudget] at hsome
        cases hsome
    subst hmemo
    obtain ⟨s', hends, -⟩ := ends_of_enters hidle hvet henters hfits
    exact ⟨o, s', hends, ho⟩

/-- Three frames are enough for a term of size three. -/
theorem unwrapping_ends_in_three_frames :
    ∃ o s', unwrapping.Ends ∅ (.seq [.text "x"]) (.unbudgeted 3 none) o s' ∧ o.hitLimit = false := by
  obtain ⟨depth, hsize, hends⟩ := unwrapping.unbounded_terminates ∅ (.seq [.text "x"]) none
    (by decide +kernel) (by decide +kernel)
  exact hends (.unbudgeted 3 none) rfl rfl rfl (hsize (by decide +kernel))

end Reshape
