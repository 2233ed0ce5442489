import Mathlib.Data.List.Destutter
import Mathlib.Data.List.Induction
import Reshape.Proofs.Reduction.Accounting

/-!
# Trails and frames

A failure collects its trail on the way out, rule by rule, while the frames of those rules are taken
off. A reduction that stops in place (`Rule.reduceInPlace`) does neither: it leaves the frames as they
are when something fails. The two fail together and for the same cause, and what is on the trail of the
one is what is in the frames of the other, with runs of one name collapsed (`Rule.reduceWithin_stops`).
So a trail is the chain of calls that its failure happened in (`Rule.trail_of_live_frames`).

The rules in the frames are compared as rules and not by their names, so that it can be said that each
of them is called by the next one.
-/

namespace Reshape

/-! ## Runs of equal elements -/

section

variable {α : Type} [DecidableEq α]

theorem destutter'_concat (a b : α) (l : List α) :
    (l ++ [b]).destutter' (· ≠ ·) a =
      if (l.destutter' (· ≠ ·) a).getLast? = some b then l.destutter' (· ≠ ·) a
      else l.destutter' (· ≠ ·) a ++ [b] := by
  induction l generalizing a with
  | nil => by_cases hab : a = b <;> simp [hab]
  | cons c l ih =>
    rw [List.cons_append]
    by_cases hac : a = c
    · rw [List.destutter'_cons_neg _ (not_not.2 hac), List.destutter'_cons_neg _ (not_not.2 hac), ih]
    · have hlast : (a :: l.destutter' (· ≠ ·) c).getLast? = (l.destutter' (· ≠ ·) c).getLast? := by
        rw [List.getLast?_cons, List.getLast?_eq_some_getLast (l.destutter'_ne_nil _)]
        rfl
      rw [List.destutter'_cons_pos _ hac, List.destutter'_cons_pos _ hac, ih, hlast]
      split <;> rfl

/-- An element that is put behind a list makes a run longer, or starts one. -/
theorem destutter_concat (l : List α) (b : α) :
    (l ++ [b]).destutter (· ≠ ·) =
      if (l.destutter (· ≠ ·)).getLast? = some b then l.destutter (· ≠ ·)
      else l.destutter (· ≠ ·) ++ [b] := by
  cases l with
  | nil => rfl
  | cons a l => exact destutter'_concat a b l

theorem getLast?_destutter (l : List α) : (l.destutter (· ≠ ·)).getLast? = l.getLast? := by
  induction l using List.reverseRecOn with
  | nil => rfl
  | append_singleton l b _ =>
    rw [destutter_concat, List.getLast?_concat]
    split
    · assumption
    · rw [List.getLast?_concat]

/-- What relates unequal neighbours relates all neighbours once runs are collapsed. -/
theorem isChain_destutter_of {related : α → α → Prop} {l : List α}
    (h : l.IsChain fun a b => a = b ∨ related a b) : (l.destutter (· ≠ ·)).IsChain related := by
  induction l using List.reverseRecOn with
  | nil => exact .nil
  | append_singleton l b ih =>
    obtain ⟨hl, -, hlast⟩ := List.isChain_append.1 h
    rw [destutter_concat]
    split
    · exact ih hl
    · rename_i hne
      rw [getLast?_destutter] at hne
      refine List.isChain_append.2 ⟨ih hl, .singleton b, fun a ha b' hb => ?_⟩
      obtain rfl := Option.some.inj hb
      rw [getLast?_destutter] at ha
      rcases hlast a ha _ rfl with rfl | hrelated
      · exact absurd ha hne
      · exact hrelated

end

/-! ## Reductions that stop in place -/

namespace Reduction

/-- Applies a rule in a frame of its own, and leaves the frame only with a result: after a failure it
is still there. Only a rule that cannot be entered gets on the trail. -/
def enterInPlace (run : Rule → Term → Eval Session Term) (rule : Rule) (term : Term) :
    Eval Session Term := do
  match ← known? rule term with
  | some known =>
    tick Meter.recalled
    return known
  | none =>
    Eval.leaving rule.name (pushFrame rule.name)
    let output ← run rule term
    modify fun session => { session with frames := session.frames.pop }
    remember rule term output
    return output

/-- Answers what a step asks for, in frames that stay after a failure. -/
def answerInPlace (run : Rule → Term → Eval Session Term) (rule : Rule) (input : Term) :
    Request → Eval Session Term
  | .self next => do
    Eval.lift (rule.admitFeedback input next)
    enterInPlace run rule next
  | .call called term => enterInPlace run called term

/-- Runs a rule inside its frame until it has a result or something fails. -/
def runInPlace (decls : Declarations) : (fuel : Nat) → Rule → Term → Eval Session Term
  | 0, _, _ => throw .unfinished
  | fuel + 1, rule, input => do
    spendStep
    let step ← (rule.step decls input).exec observe (answerInPlace (runInPlace decls fuel) rule input)
    proceed (runInPlace decls fuel) rule input step

end Reduction

/-- Reduces a term with a rule. After a failure the frames are those in which it happened. -/
def Rule.reduceInPlace (fuel : Nat) (rule : Rule) (decls : Declarations) (term : Term) :
    Eval Session Term := do
  if (← get).frames.isEmpty then Eval.lift (rule.vet decls term)
  Reduction.enterInPlace (Reduction.runInPlace decls fuel) rule term

/-- One rule is entered from inside the other: it is fed back into, or called. -/
def Rule.EnteredFrom (inner outer : Rule) : Prop := inner = outer ∨ inner ∈ outer.calls

/-- The rules of a stack of frames, the innermost first, of which `rule` is the outermost. -/
structure Rule.Stack (rule : Rule) (rules : List Rule) : Prop where
  outermost : rules.getLast? = some rule
  chain : rules.IsChain EnteredFrom

/-- The failure has left no rule yet, and it is not that a rule could not be entered. -/
structure Failure.Fresh (failure : Failure) : Prop where
  trail : failure.trail = []
  cause : ∀ max, failure.cause ≠ .limitReached .depth max

theorem Failure.OfStep.fresh {failure : Failure} (h : failure.OfStep) : failure.Fresh := by
  refine ⟨h.trail, fun max hcause => ?_⟩
  have hlimit := h.limit
  rw [hitLimit, hcause] at hlimit
  cases hlimit

/-- A failure that has not left any rule: there is nothing on its trail but, if the depth limit is
reached, the rule that could not be entered. -/
def Failure.InPlace (failure : Failure) : Prop :=
  failure.Fresh ∨ ∃ max name, failure = ⟨.limitReached .depth max, [name]⟩

/-- Evaluation inside of `frames` comes to the same whether it leaves the rules that it has entered or
stops in place: to a result, or to a failure with the same cause, and in the same session but for the
frames. The rules that it has entered by then, the innermost first, are on the trail of the one, with
runs of one name collapsed, and in the frames of the other. -/
inductive Stops {α : Type} (frames : Frames) (entered : List Rule → Prop) :
    EStateM.Result Halt Session α → EStateM.Result Halt Session α → Prop
  | ok {value : α} {s : Session} (hframes : s.frames = frames) :
      Stops frames entered (.ok value s) (.ok value s)
  | failed {failure raw : Failure} {halted : Session} {rules : List Rule} (hrules : entered rules)
      (hcause : raw.cause = failure.cause) (hraw : raw.InPlace)
      (htrail : failure.trail = (rules.map (·.name)).destutter (· ≠ ·))
      (hlive : raw.trail ++ halted.frames.live = rules.map (·.name) ++ frames.live) :
      Stops frames entered (.error (.failed failure) { halted with frames })
        (.error (.failed raw) halted)
  | unfinished {s halted : Session} :
      Stops frames entered (.error .unfinished s) (.error .unfinished halted)

namespace Rule.Stack

theorem single (rule : Rule) : rule.Stack [rule] := ⟨rfl, .singleton rule⟩

/-- A frame goes below those that were entered from it. -/
theorem below {inner outer : Rule} {rules : List Rule} (h : inner.Stack rules)
    (hinner : inner.EnteredFrom outer) : outer.Stack (rules ++ [outer]) := by
  refine ⟨List.getLast?_concat, List.isChain_append.2 ⟨h.chain, .singleton outer, ?_⟩⟩
  intro a ha b hb
  obtain rfl := Option.some.inj (h.outermost.symm.trans ha)
  obtain rfl := Option.some.inj hb
  exact hinner

end Rule.Stack

theorem Stops.mono {α : Type} {frames : Frames} {entered entered' : List Rule → Prop}
    {r r' : EStateM.Result Halt Session α} (h : Stops frames entered r r')
    (hentered : ∀ rules, entered rules → entered' rules) : Stops frames entered' r r' := by
  cases h with
  | ok hframes => exact .ok hframes
  | failed hrules hcause hraw htrail hlive => exact .failed (hentered _ hrules) hcause hraw htrail hlive
  | unfinished => exact .unfinished

namespace Reduction

open Eval

variable {α β : Type} {entered : List Rule → Prop} {x y : Eval Session α}
  {runs runs' : Rule → Term → Eval Session Term} {rule : Rule}

/-- The evaluations stop together in every session. -/
def StopTogether (entered : List Rule → Prop) (x y : Eval Session α) : Prop :=
  ∀ s, Stops s.frames entered (x s) (y s)

namespace StopTogether

theorem mono {entered' : List Rule → Prop} (h : StopTogether entered x y)
    (hentered : ∀ rules, entered rules → entered' rules) : StopTogether entered' x y :=
  fun s => (h s).mono hentered

/-- What is evaluated after a value is in the same frames. -/
theorem bind {f g : α → Eval Session β} (h : StopTogether entered x y)
    (hf : ∀ value, StopTogether entered (f value) (g value)) :
    StopTogether entered (x >>= f) (y >>= g) := by
  intro s
  have hfirst := h s
  rw [bind_apply, bind_apply]
  generalize x s = r, y s = r' at hfirst
  cases hfirst with
  | @ok value s₁ hframes => exact hframes ▸ hf value s₁
  | failed hrules hcause hraw htrail hlive => exact .failed hrules hcause hraw htrail hlive
  | unfinished => exact .unfinished

theorem lift {o : Outcome α} (hnil : entered []) (h : ∀ failure, o = .error failure → failure.Fresh) :
    StopTogether entered (Eval.lift o) (Eval.lift o) := by
  intro s
  cases o with
  | ok value => exact .ok rfl
  | error failure =>
    have hfresh := h failure rfl
    exact .failed hnil rfl (.inl hfresh) hfresh.trail (by rw [hfresh.trail]; rfl)

theorem spendStep (hnil : entered []) : StopTogether entered Reduction.spendStep Reduction.spendStep := by
  intro s
  rw [spendStep_apply]
  refine lift hnil (fun failure h => ?_) { s with meter := s.meter.step }
  obtain ⟨budget, rfl⟩ := Meter.check_eq_error h
  exact ⟨rfl, by rintro _ ⟨⟩⟩

theorem observe (n : Note) : StopTogether entered (Reduction.observe n) (Reduction.observe n) := by
  cases n <;> exact fun s => .ok rfl

theorem exec {ask ask' : Request → Eval Session Term} {notes : Note → Prop} {asks : Request → Prop}
    {gives : α → Prop} {plan : Plan α} (hnil : entered [])
    (hplan : plan.Abides Failure.OfStep notes asks gives)
    (hask : ∀ request, asks request → StopTogether entered (ask request) (ask' request)) :
    StopTogether entered (plan.exec Reduction.observe ask) (plan.exec Reduction.observe ask') := by
  induction hplan with
  | done => exact fun s => .ok rfl
  | @fail failure hfailure =>
    refine lift (o := .error failure) hnil ?_
    rintro _ ⟨⟩
    exact hfailure.fresh
  | note _ _ ih => exact .bind (.observe _) fun _ => ih
  | ask hrequest _ ih => exact .bind (hask _ hrequest) ih

end StopTogether

theorem push_live {frames pushed : Frames} {name : String} (h : frames.push name = .ok pushed) :
    pushed.live = name :: frames.live := by
  unfold Frames.push at h
  split at h <;> cases h
  rfl

theorem admitFeedback_fresh {input next : Term} :
    ∀ failure, rule.admitFeedback input next = .error failure → failure.Fresh := by
  intro failure h
  rw [Rule.admitFeedback_eq_error h]
  exact ⟨rfl, by rintro _ ⟨⟩⟩

/-- A failure that leaves a rule has the rule at the end of its trail, after those that it left before. -/
theorem trail_leaving {failure : Failure} {rules : List Rule}
    (h : failure.trail = (rules.map (·.name)).destutter (· ≠ ·)) (rule : Rule) :
    (failure.leaving rule.name).trail = ((rules ++ [rule]).map (·.name)).destutter (· ≠ ·) := by
  rw [List.map_append, List.map_singleton, destutter_concat, ← h, Failure.leaving]
  split <;> rfl

/-! ## Entering a rule -/

/-- A session after a rule has come to a result in the frame on top. -/
def finished (rule : Rule) (input output : Term) (s : Session) : Session :=
  { s with frames := s.frames.pop, memo := s.memo.map (·.insert rule input output) }

section

variable {term : Term} {s s₁ : Session} {failure : Failure}

theorem enterInPlace_eq_ran (hknown : s.memo.bind (·.get? rule term) = none) :
    enterInPlace runs rule term s =
      (leaving rule.name (pushFrame rule.name) >>= fun _ => runs rule term >>= fun output =>
        modify (fun session => { session with frames := session.frames.pop }) >>= fun _ =>
          remember rule term output >>= fun _ => pure output) s := by
  rw [enterInPlace, bind_apply, known?_apply, hknown]

theorem enter_of_full (hknown : s.memo.bind (·.get? rule term) = none)
    (hfull : s.frames.push rule.name = .error failure) :
    enter runs rule term s =
      .error (.failed ⟨.limitReached .depth s.frames.maxDepth, [rule.name]⟩) s := by
  obtain rfl := Frames.push_eq_error hfull
  rw [enter_eq_ran hknown, bind_apply, leaving, bind_apply, pushFrame_apply, hfull]
  rfl

theorem enterInPlace_of_full (hknown : s.memo.bind (·.get? rule term) = none)
    (hfull : s.frames.push rule.name = .error failure) :
    enterInPlace runs rule term s =
      .error (.failed ⟨.limitReached .depth s.frames.maxDepth, [rule.name]⟩) s := by
  obtain rfl := Frames.push_eq_error hfull
  rw [enterInPlace_eq_ran hknown, bind_apply, leaving, pushFrame_apply, hfull]
  rfl

theorem enter_of_push (hknown : s.memo.bind (·.get? rule term) = none)
    (hpush : pushFrame rule.name s = .ok () s₁) :
    enter runs rule term s = match runs rule term s₁ with
      | .ok output s₂ => .ok output (finished rule term output s₂)
      | .error (.failed failure) s₂ =>
        .error (.failed (failure.leaving rule.name)) { s₂ with frames := s₂.frames.pop }
      | .error .unfinished s₂ => .error .unfinished { s₂ with frames := s₂.frames.pop } := by
  rw [enter_eq_ran hknown, bind_apply, leaving, bind_apply, hpush]
  simp only [thenPop]
  rcases runs rule term s₁ with ⟨output, s₂⟩ | ⟨failure | _, s₂⟩ <;> rfl

theorem enterInPlace_of_push (hknown : s.memo.bind (·.get? rule term) = none)
    (hpush : pushFrame rule.name s = .ok () s₁) :
    enterInPlace runs rule term s = match runs rule term s₁ with
      | .ok output s₂ => .ok output (finished rule term output s₂)
      | .error halt s₂ => .error halt s₂ := by
  have hentered : leaving rule.name (pushFrame rule.name) s = .ok () s₁ := by rw [leaving, hpush]
  rw [enterInPlace_eq_ran hknown, bind_apply, hentered]
  show (runs rule term >>= fun _ => _) s₁ = _
  rw [bind_apply]
  cases runs rule term s₁ <;> rfl

end

/-- The evaluations stop together in a frame of the rule. -/
abbrev StopInside (rule : Rule) (x y : Eval Session α) : Prop :=
  StopTogether (fun rules => rule.Stack (rules ++ [rule])) x y

/-- Where runs of a rule stop together, applying the rule does so too, and puts its frame below those
that were entered from it. -/
theorem enter_stopTogether {term : Term} (hruns : StopInside rule (runs rule term) (runs' rule term)) :
    StopTogether rule.Stack (enter runs rule term) (enterInPlace runs' rule term) := by
  intro s
  cases hknown : s.memo.bind (·.get? rule term) with
  | some known =>
    rw [enter_eq_recalled hknown, enterInPlace, bind_apply, known?_apply, hknown]
    exact .ok rfl
  | none =>
    have happly := pushFrame_apply rule.name s
    cases hpush : s.frames.push rule.name with
    | error failure =>
      rw [enter_of_full hknown hpush, enterInPlace_of_full hknown hpush]
      exact .failed (.single rule) rfl (.inr ⟨_, _, rfl⟩) rfl rfl
    | ok pushed =>
      rw [hpush] at happly
      have hpop : pushed.pop = s.frames := Frames.pop_of_push hpush
      have hrun := hruns { s with frames := pushed, meter := s.meter.entered pushed.depth }
      rw [enter_of_push hknown happly, enterInPlace_of_push hknown happly]
      generalize runs rule term _ = r, runs' rule term _ = r' at hrun
      cases hrun with
      | ok hframes => exact .ok (by rw [finished, hframes, hpop])
      | unfinished => exact .unfinished
      | @failed failure raw halted rules hrules hcause hraw htrail hlive =>
        rw [← hpop]
        show Stops pushed.pop rule.Stack (.error (.failed (failure.leaving rule.name))
          { halted with frames := pushed.pop }) (.error (.failed raw) halted)
        refine Stops.failed hrules ?_ hraw (trail_leaving htrail rule) ?_
        · rw [Failure.cause_leaving, hcause]
        · rw [hlive, hpop, push_live hpush, List.map_append, List.append_assoc]
          rfl

/-! ## Runs -/

/-- Whatever rules are run on, the runs stop together. -/
abbrev RunsTogether (runs runs' : Rule → Term → Eval Session Term) : Prop :=
  ∀ rule term, StopInside rule (runs rule term) (runs' rule term)

theorem enter_inside (hruns : RunsTogether runs runs') {called : Rule} (hcalled : called.EnteredFrom rule)
    (term : Term) : StopInside rule (enter runs called term) (enterInPlace runs' called term) :=
  (enter_stopTogether (hruns called term)).mono fun _ hrules => hrules.below hcalled

theorem answer_stopTogether (hruns : RunsTogether runs runs') (input : Term) {request : Request}
    (hrequest : request.CallsAmong rule.calls) :
    StopInside rule (answer runs rule input request) (answerInPlace runs' rule input request) := by
  cases request with
  | self next =>
    exact .bind (.lift (.single rule) admitFeedback_fresh) fun _ => enter_inside hruns (.inl rfl) next
  | call called term => exact enter_inside hruns (.inr hrequest) term

theorem proceed_stopTogether (hruns : RunsTogether runs runs') (input : Term) (step : Step) :
    StopInside rule (proceed runs rule input step) (proceed runs' rule input step) := by
  cases step with
  | done result => exact fun s => .ok rfl
  | again next =>
    refine .bind (.lift (.single rule) admitFeedback_fresh) fun _ => ?_
    exact .bind (fun s => .ok rfl) fun _ => hruns rule next

/-- Running a rule in its frame stops in place as it stops. -/
theorem run_stopTogether (decls : Declarations) (fuel : Nat) :
    RunsTogether (run decls fuel) (runInPlace decls fuel) := by
  induction fuel with
  | zero => exact fun rule term s => .unfinished
  | succ fuel ih =>
    intro rule input
    refine .bind (.spendStep (.single rule)) fun _ => .bind ?_ fun step => ?_
    · exact .exec (.single rule) (rule.step_tries decls input).abides fun _ =>
        answer_stopTogether ih input
    · exact proceed_stopTogether ih input step

end Reduction

/-- A reduction that passes stops in place as it stops, and the outermost of the rules that it has
entered is the one that it reduces with. -/
theorem Rule.reduceWithin_stops {rule : Rule} {decls : Declarations} {term : Term} {s : Session}
    (fuel : Nat) (hidle : s.Idle) (hvet : rule.vet decls term = .ok ()) :
    Stops s.frames rule.Stack (rule.reduceWithin fuel decls term s)
      (rule.reduceInPlace fuel decls term s) := by
  have hinPlace : rule.reduceInPlace fuel decls term s =
      (Eval.lift (rule.vet decls term) >>= fun _ =>
        Reduction.enterInPlace (Reduction.runInPlace decls fuel) rule term) s := by
    have hempty : s.frames.isEmpty = true := List.isEmpty_iff.2 hidle
    show (if s.frames.isEmpty = true then _ else _ : Eval Session Term) s = _
    rw [if_pos hempty]
  rw [reduceWithin_of_idle hidle, hinPlace, hvet]
  exact Reduction.enter_stopTogether (Reduction.run_stopTogether decls fuel rule term) s

/-- The trail of a failure is the chain of calls that it happened in. Where reducing an acyclic term with
a valid rule fails, it fails for the same cause if it is stopped in place, in the session that it leaves
but for the frames. The rules that are live there, the innermost first, and before them the one that
could not be entered if the depth limit is reached, each are the next one or called by it, and the last
one is the rule itself. The trail is their names with runs of one name collapsed. So it is not empty and
ends with the rule, no name is next to itself, and of two neighbours some rule named by the second calls
one that is named by the first. -/
theorem Rule.trail_of_live_frames (rule : Rule) (decls : Declarations) (term : Term) (s s' : Session)
    (fuel : Nat) (failure : Failure) (hidle : s.Idle) (hvalid : rule.validate = .ok ())
    (hterm : decls.needAcyclic term = .ok ())
    (h : rule.reduceWithin fuel decls term s = .error (.failed failure) s') :
    (∃ (raw : Failure) (halted : Session) (rules : List Rule),
      rule.reduceInPlace fuel decls term s = .error (.failed raw) halted ∧
      raw.cause = failure.cause ∧ raw.InPlace ∧ s' = { halted with frames := s.frames } ∧
      rules.map (·.name) = raw.trail ++ halted.frames.live ∧
      rule.Stack rules ∧
      failure.trail = (raw.trail ++ halted.frames.live).destutter (· ≠ ·) ∧
      failure.trail.IsChain fun inner outer => ∃ called ∈ rules, ∃ caller ∈ rules,
        called.name = inner ∧ caller.name = outer ∧ called ∈ caller.calls) ∧
    failure.trail ≠ [] ∧ failure.trail.getLast? = some rule.name ∧ failure.trail.IsChain (· ≠ ·) := by
  have hstops := reduceWithin_stops fuel hidle ((vet_of_acyclic hterm).trans hvalid)
  rw [h] at hstops
  generalize hr : rule.reduceInPlace fuel decls term s = r at hstops
  cases hstops with
  | @failed _ raw halted rules hrules hcause hraw htrail hlive =>
    have hnames : rules.map (·.name) = raw.trail ++ halted.frames.live := by
      rw [hlive, hidle, List.append_nil]
    have hnamesLast : (rules.map (·.name)).getLast? = some rule.name := by
      rw [List.getLast?_map, hrules.outermost, Option.map_some]
    have hnamesChain : (rules.map (·.name)).IsChain fun inner outer => inner = outer ∨
        ∃ called ∈ rules, ∃ caller ∈ rules,
          called.name = inner ∧ caller.name = outer ∧ called ∈ caller.calls := by
      refine (List.isChain_map _).2 ((List.IsChain.iff_mem.1 hrules.chain).imp ?_)
      rintro inner outer ⟨hinner, houter, rfl | hcalls⟩
      · exact .inl rfl
      · exact .inr ⟨inner, hinner, outer, houter, rfl, rfl, hcalls⟩
    refine ⟨⟨raw, halted, rules, rfl, hcause, hraw, rfl, hnames, hrules, ?_, ?_⟩, ?_, ?_, ?_⟩
    · rw [htrail, hnames]
    · rw [htrail]
      exact isChain_destutter_of hnamesChain
    · intro hnil
      rw [htrail, List.destutter_eq_nil] at hnil
      rw [hnil] at hnamesLast
      cases hnamesLast
    · rw [htrail, getLast?_destutter, hnamesLast]
    · rw [htrail]
      exact List.isChain_destutter _ _

/-- Feeds its input back in a frame of its own, without end. -/
def looping : Rule where
  name := "looping"
  arms := [{ pattern := .bind "x", body := .seq [.element (.reduce (.capture "x"))] }]
  recursion := .bounded

/-- Calls a rule that does not come to an end. -/
def digging : Rule where
  name := "digging"
  arms := [{ pattern := .bind "x", body := .call looping (.capture "x") }]

/-- Three frames are not enough: the two frames of the rule that is fed back into and the one that could
not be entered are one on the trail. -/
theorem digging_trail :
    ∃ halted s', digging.reduce ∅ (.bool true) (.ofMode (.custom 3 (some 9))) =
        .error (.failed ⟨.limitReached .depth 3, ["looping", "digging"]⟩) s' ∧
      digging.reduceInPlace 10 ∅ (.bool true) (.ofMode (.custom 3 (some 9))) =
        .error (.failed ⟨.limitReached .depth 3, ["looping"]⟩) halted ∧
      halted.frames.live = ["looping", "looping", "digging"] ∧
      ["looping", "digging"] = (["looping"] ++ halted.frames.live).destutter (· ≠ ·) := by
  obtain ⟨⟨raw, halted, rules, hhalted, -, -, -, -, -, htrail, -⟩, -⟩ :=
    digging.trail_of_live_frames ∅ (.bool true) (.ofMode (.custom 3 (some 9))) _ 10
      ⟨.limitReached .depth 3, ["looping", "digging"]⟩ rfl (by decide +kernel)
      rfl rfl
  cases hhalted
  exact ⟨_, _, rfl, rfl, rfl, htrail⟩

end Reshape
