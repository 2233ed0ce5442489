import Reshape.Proofs.Reduction.Conditions
import Reshape.Proofs.Reduction.Memo
import Reshape.Proofs.Template.Hereditary

/-!
# What a reduction feeds to rules

A reduction looks at its input once, before the first step. `Rule.Feeds` says what it runs rules
on from there: the terms that steps ask for, in the run itself and in the runs inside it, and the
terms that it goes on with. If a property is inherited by parts, and the literals of the rule, the
results in the memo and every input that passes have it, all these terms have it (`Rule.Feeds.all`),
and so has the result (`Rule.Ends.all`).

A run keeps the property from its state to its result and to the memo that it leaves
(`Reduction.Keeps`), however it ends. That carries the proof past the answers that a step had before
it asked for the next term.
-/

namespace Reshape

/-- The property holds of all results in the memo. -/
def Memo.All (P : Term → Prop) (memo : Memo) : Prop :=
  ∀ number, ∀ record ∈ memo.bucket number, P record.output

/-- The property holds of all results that the session remembers. -/
def Session.Remembers (P : Term → Prop) (s : Session) : Prop := ∀ memo ∈ s.memo, memo.All P

namespace Memo

variable {P : Term → Prop} {memo : Memo}

theorem all_empty (P : Term → Prop) : All P ∅ := by
  intro number record hmem
  rw [bucket_empty] at hmem
  cases hmem

theorem All.get? (h : memo.All P) {rule : Rule} {input output : Term}
    (hget : memo.get? rule input = some output) : P output := by
  obtain ⟨record, hmem, -, rfl⟩ := exists_of_get? hget
  exact h _ record hmem

theorem All.insert (h : memo.All P) (rule : Rule) (input : Term) {output : Term} (houtput : P output) :
    (memo.insert rule input output).All P := by
  intro number record hmem
  rcases mem_bucket_insert hmem with rfl | hold | ⟨old, -, -, rfl⟩
  · exact houtput
  · exact h number record hold
  · exact houtput

end Memo

/-! ## What is fed -/

/-- The rule that a request is for, and the term that it is to be run on. -/
def Request.target (rule : Rule) : Request → Rule × Term
  | .self next => (rule, next)
  | .call called term => (called, term)

/-- Rejects a request that feeds back a term which is not admitted. -/
def Request.admit (rule : Rule) (input : Term) : Request → Except Failure Unit
  | .self next => rule.admitFeedback input next
  | .call .. => .ok ()

namespace Reduction

/-- While the plan is carried out from the state `s`, the request is come to, in the state `s'`. -/
inductive Reaches (ask : Request → Eval Session Term) {α : Type} :
    Plan α → Session → Request → Session → Prop where
  | here {request : Request} {next : Term → Plan α} {s : Session} :
      Reaches ask (.ask request next) s request s
  | note {n : Note} {rest : Plan α} {s s₁ s' : Session} {request : Request} :
      observe n s = .ok () s₁ → Reaches ask rest s₁ request s' →
      Reaches ask (.note n rest) s request s'
  | answered {first request : Request} {next : Term → Plan α} {answer : Term} {s s₁ s' : Session} :
      ask first s = .ok answer s₁ → Reaches ask (next answer) s₁ request s' →
      Reaches ask (.ask first next) s request s'

/-- Running the rule on the input from the state `s`, the reduction comes to feed the term to the
rule that is called. -/
inductive Feeds (decls : Declarations) :
    (fuel : Nat) → Rule → Term → Session → (called : Rule) → (term : Term) → Prop where
  /-- A step asks for the called rule to be run on the term. -/
  | asked {fuel : Nat} {rule called : Rule} {input term : Term} {s s₁ s₂ : Session}
      {request : Request} :
      spendStep s = .ok () s₁ →
      Reaches (answer (run decls fuel) rule input) (rule.step decls input) s₁ request s₂ →
      request.target rule = (called, term) →
      Feeds decls (fuel + 1) rule input s called term
  /-- A run that a step asks for feeds the term, unless its result is known. -/
  | inside {fuel : Nat} {rule inner called : Rule} {input next term : Term} {s s₁ s₂ s₃ : Session}
      {request : Request} :
      spendStep s = .ok () s₁ →
      Reaches (answer (run decls fuel) rule input) (rule.step decls input) s₁ request s₂ →
      request.admit rule input = .ok () → request.target rule = (inner, next) →
      s₂.memo.bind (·.get? inner next) = none → pushFrame inner.name s₂ = .ok () s₃ →
      Feeds decls fuel inner next s₃ called term →
      Feeds decls (fuel + 1) rule input s called term
  /-- A step gives the term to go on with. -/
  | again {fuel : Nat} {rule : Rule} {input next : Term} {s s₁ s₂ : Session} :
      spendStep s = .ok () s₁ →
      (rule.step decls input).exec observe (answer (run decls fuel) rule input) s₁ =
        .ok (.again next) s₂ →
      Feeds decls (fuel + 1) rule input s rule next
  /-- The run goes on with another term, and feeds this one later. -/
  | onwards {fuel : Nat} {rule called : Rule} {input next term : Term} {s s₁ s₂ s₃ : Session} :
      spendStep s = .ok () s₁ →
      (rule.step decls input).exec observe (answer (run decls fuel) rule input) s₁ =
        .ok (.again next) s₂ →
      rule.admitFeedback input next = .ok () → tick Meter.fedBack s₂ = .ok () s₃ →
      Feeds decls fuel rule next s₃ called term →
      Feeds decls (fuel + 1) rule input s called term

end Reduction

/-- Reducing the input with the rule, the reduction comes to feed the term to the rule that is
called. -/
def Rule.Feeds (rule : Rule) (decls : Declarations) (input : Term) (s : Session) (called : Rule)
    (term : Term) : Prop :=
  ∃ fuel s₁, rule.vet decls input = .ok () ∧ s.memo.bind (·.get? rule input) = none ∧
    Reduction.pushFrame rule.name s = .ok () s₁ ∧
    Reduction.Feeds decls fuel rule input s₁ called term

/-! ## What runs keep -/

namespace Reduction

open Eval

variable {α β : Type} {decls : Declarations} {P : Term → Prop} {gives : α → Prop} {final : β → Prop}
  {x : Eval Session α} {runs : Rule → Term → Eval Session Term} {fuel : Nat}

/-- If the property holds of all that the session remembers, it does so afterwards as well, however
evaluation ends; and a value is as the condition says. -/
def Keeps (P : Term → Prop) (gives : α → Prop) (x : Eval Session α) : Prop :=
  ∀ s, s.Remembers P →
    match x s with
    | .ok value s' => gives value ∧ s'.Remembers P
    | .error _ s' => s'.Remembers P

theorem Keeps.of_ok {s s' : Session} {value : α} (h : Keeps P gives x) (hs : s.Remembers P)
    (hx : x s = .ok value s') : gives value ∧ s'.Remembers P := by
  have hkept := h s hs
  rwa [hx] at hkept

theorem keeps_iff : Keeps P gives x ↔ x.Respects (·.Remembers P) (fun _ => True) gives := by
  refine forall₂_congr fun s _ => ?_
  cases x s with
  | ok value s' => rfl
  | error halt s' => exact (and_iff_right fun _ _ => trivial).symm

theorem ofMemo_remembers (P : Term → Prop) : OfMemo (·.Remembers P) := by
  intro s s' hmemo hs
  rwa [Session.Remembers, hmemo]

theorem Keeps.pure {value : α} (h : gives value) : Keeps P gives (Pure.pure value) :=
  keeps_iff.2 (.pure h)

theorem Keeps.lift {o : Outcome α} (h : ∀ value, o = .ok value → gives value) :
    Keeps P gives (Eval.lift o) :=
  keeps_iff.2 (.lift h fun _ _ => trivial)

theorem Keeps.modify {f : Session → Session} (hf : ∀ s, s.Remembers P → (f s).Remembers P) :
    Keeps P (fun _ => True) (modify f : Eval Session PUnit) :=
  keeps_iff.2 (.modify hf)

theorem Keeps.get : Keeps P (fun s => s.Remembers P) (get : Eval Session Session) :=
  keeps_iff.2 .get

theorem Keeps.bind {f : α → Eval Session β} (h : Keeps P gives x)
    (hf : ∀ value, gives value → Keeps P final (f value)) : Keeps P final (x >>= f) :=
  keeps_iff.2 ((keeps_iff.1 h).bind fun value hvalue => keeps_iff.1 (hf value hvalue))

theorem Keeps.leaving (rule : String) (h : Keeps P gives x) : Keeps P gives (Eval.leaving rule x) :=
  keeps_iff.2 ((keeps_iff.1 h).leaving rule fun _ _ => trivial)

theorem Keeps.thenPop (h : Keeps P gives x) : Keeps P gives (Reduction.thenPop x) :=
  keeps_iff.2 (thenPop_respects (ofMemo_remembers P) (keeps_iff.1 h))

theorem tick_keeps (f : Meter → Meter) : Keeps P (fun _ => True) (tick f) :=
  keeps_iff.2 (tick_respects (ofMemo_remembers P) f)

theorem spendStep_keeps : Keeps P (fun _ => True) spendStep :=
  keeps_iff.2 (spendStep_respects (ofMemo_remembers P) fun _ => trivial)

theorem pushFrame_keeps (rule : String) : Keeps P (fun _ => True) (pushFrame rule) :=
  keeps_iff.2 (pushFrame_respects (ofMemo_remembers P) rule fun _ => trivial)

theorem observe_keeps (n : Note) : Keeps P (fun _ => True) (observe n) :=
  keeps_iff.2 (observe_respects (ofMemo_remembers P) n)

/-- Entering a rule keeps the property if running it does. -/
theorem enter_keeps {rule : Rule} {term : Term} (h : Keeps P P (runs rule term)) :
    Keeps P P (enter runs rule term) := by
  have hknown : Keeps P (fun known => ∀ term ∈ known, P term) (known? rule term) := by
    refine Keeps.get.bind fun s hs => .pure fun known hget => ?_
    obtain ⟨memo, hmemo, hget⟩ := Option.bind_eq_some_iff.1 hget
    exact (hs memo hmemo).get? hget
  refine hknown.bind fun known hgives => ?_
  cases known with
  | some known => exact (tick_keeps _).bind fun _ _ => .pure (hgives known rfl)
  | none =>
    refine (Keeps.leaving _ ((pushFrame_keeps _).bind fun _ _ => h.thenPop)).bind fun output houtput => ?_
    refine Keeps.bind (.modify fun s hs => ?_) fun _ _ => .pure houtput
    intro memo hmemo
    obtain ⟨old, hold, rfl⟩ := Option.map_eq_some_iff.1 hmemo
    exact (hs old hold).insert rule term houtput

/-- Whatever the rule and the term, if the rule's literals and the term have the property, running
the rule on the term keeps it. -/
def AllKeep (P : Term → Prop) (runs : Rule → Term → Eval Session Term) : Prop :=
  ∀ {rule : Rule} {term : Term}, (∀ t ∈ rule.literals, P t) → P term → Keeps P P (runs rule term)

theorem answer_keeps (h : AllKeep P runs) {rule : Rule} {input : Term}
    (hliterals : ∀ t ∈ rule.literals, P t) (request : Request) (hrequest : request.All P) :
    Keeps P P (answer runs rule input request) := by
  cases request with
  | self next =>
    exact Keeps.bind (.lift fun _ _ => trivial) fun _ _ => enter_keeps (h hliterals hrequest)
  | call called term => exact enter_keeps (h hrequest.1 hrequest.2)

theorem exec_keeps {plan : Plan α} {ask : Request → Eval Session Term} (h : plan.Within P gives)
    (hask : ∀ request, request.All P → Keeps P P (ask request)) :
    Keeps P gives (plan.exec observe ask) := by
  induction h with
  | done hvalue => exact .pure hvalue
  | fail => exact fun _ hs => hs
  | note _ ih => exact (observe_keeps _).bind fun _ _ => ih
  | ask hrequest _ ih => exact (hask _ hrequest).bind fun answer hanswer => ih answer hanswer

theorem proceed_keeps (h : AllKeep P runs) {rule : Rule} {input : Term} {step : Step}
    (hliterals : ∀ t ∈ rule.literals, P t) (hstep : step.All P) :
    Keeps P P (proceed runs rule input step) := by
  cases step with
  | done result => exact .pure hstep
  | again next =>
    refine Keeps.bind (.lift fun _ _ => trivial) fun _ _ => ?_
    exact (tick_keeps _).bind fun _ _ => h hliterals hstep

/-- Runs keep the property. -/
theorem run_keeps (hP : decls.Hereditary P) (fuel : Nat) : AllKeep P (run decls fuel) := by
  induction fuel with
  | zero => exact fun _ _ _ hs => hs
  | succ fuel ih =>
    intro rule input hliterals hinput
    have hask : ∀ request, request.All P → Keeps P P (answer (run decls fuel) rule input request) :=
      answer_keeps ih hliterals
    have hstep := exec_keeps (rule.step_meets hP hliterals hinput) hask
    exact spendStep_keeps.bind fun _ _ => hstep.bind fun step h => proceed_keeps ih hliterals h

/-! ## What is fed has the property -/

theorem Reaches.all {plan : Plan α} {ask : Request → Eval Session Term} {s s' : Session}
    {request : Request} (h : Reaches ask plan s request s') (hplan : plan.Within P gives)
    (hask : ∀ request, request.All P → Keeps P P (ask request)) (hs : s.Remembers P) :
    request.All P ∧ s'.Remembers P := by
  induction h with
  | here =>
    cases hplan with
    | ask hrequest _ => exact ⟨hrequest, hs⟩
  | note hobserve _ ih =>
    cases hplan with
    | note hrest => exact ih hrest ((observe_keeps _).of_ok hs hobserve).2
  | answered hanswer _ ih =>
    cases hplan with
    | ask hrequest hnext =>
      obtain ⟨hterm, hs₁⟩ := (hask _ hrequest).of_ok hs hanswer
      exact ih (hnext _ hterm) hs₁

theorem all_target {rule called : Rule} {term : Term} {request : Request}
    (hliterals : ∀ t ∈ rule.literals, P t) (h : request.All P)
    (htarget : request.target rule = (called, term)) : (∀ t ∈ called.literals, P t) ∧ P term := by
  cases request with
  | self next =>
    cases htarget
    exact ⟨hliterals, h⟩
  | call other input =>
    cases htarget
    exact h

section

variable {rule : Rule} {input : Term} {s s₁ s₂ : Session}

/-- What a step asks for has the property. -/
theorem Reaches.all_of_step {request : Request} (hP : decls.Hereditary P)
    (hspend : spendStep s = .ok () s₁)
    (hreaches : Reaches (answer (run decls fuel) rule input) (rule.step decls input) s₁ request s₂)
    (hliterals : ∀ t ∈ rule.literals, P t) (hinput : P input) (hs : s.Remembers P) :
    request.All P ∧ s₂.Remembers P := by
  have hs₁ := (spendStep_keeps.of_ok hs hspend).2
  have hstep := rule.step_meets hP hliterals hinput
  exact hreaches.all hstep (answer_keeps (run_keeps hP fuel) hliterals) hs₁

/-- What a step gives has the property. -/
theorem step_all {step : Step} (hP : decls.Hereditary P) (hspend : spendStep s = .ok () s₁)
    (hexec : (rule.step decls input).exec observe (answer (run decls fuel) rule input) s₁ = .ok step s₂)
    (hliterals : ∀ t ∈ rule.literals, P t) (hinput : P input) (hs : s.Remembers P) :
    step.All P ∧ s₂.Remembers P := by
  have hs₁ := (spendStep_keeps.of_ok hs hspend).2
  have hstep := rule.step_meets hP hliterals hinput
  exact (exec_keeps hstep (answer_keeps (run_keeps hP fuel) hliterals)).of_ok hs₁ hexec

/-- What a run feeds to rules has the property. -/
theorem Feeds.all (hP : decls.Hereditary P) {called : Rule} {term : Term}
    (h : Feeds decls fuel rule input s called term) (hliterals : ∀ t ∈ rule.literals, P t)
    (hinput : P input) (hs : s.Remembers P) : P term := by
  induction h with
  | asked hspend hreaches htarget =>
    obtain ⟨hrequest, -⟩ := hreaches.all_of_step hP hspend hliterals hinput hs
    exact (all_target hliterals hrequest htarget).2
  | inside hspend hreaches _ htarget _ hpush _ ih =>
    obtain ⟨hrequest, hs₂⟩ := hreaches.all_of_step hP hspend hliterals hinput hs
    obtain ⟨hinner, hnext⟩ := all_target hliterals hrequest htarget
    exact ih hinner hnext ((pushFrame_keeps _).of_ok hs₂ hpush).2
  | again hspend hexec => exact (step_all hP hspend hexec hliterals hinput hs).1
  | onwards hspend hexec _ htick _ ih =>
    obtain ⟨hnext, hs₂⟩ := step_all hP hspend hexec hliterals hinput hs
    exact ih hliterals hnext ((tick_keeps _).of_ok hs₂ htick).2

end

end Reduction

section

variable {decls : Declarations} {P : Term → Prop} {rule : Rule} {input : Term} {s s' : Session}

/-- What a reduction feeds to rules has the property. -/
theorem Rule.Feeds.all (hP : decls.Hereditary P) {called : Rule} {term : Term}
    (h : rule.Feeds decls input s called term) (hliterals : ∀ t ∈ rule.literals, P t)
    (hinput : rule.vet decls input = .ok () → P input) (hs : s.Remembers P) : P term := by
  obtain ⟨fuel, s₁, hvet, -, hpush, hfeeds⟩ := h
  exact hfeeds.all hP hliterals (hinput hvet) ((Reduction.pushFrame_keeps _).of_ok hs hpush).2

/-- The result of a reduction has the property, and so have those that are remembered then. -/
theorem Rule.Ends.all {o : Outcome Term} (hP : decls.Hereditary P)
    (h : rule.Ends decls input s o s') (hidle : s.Idle) (hliterals : ∀ t ∈ rule.literals, P t)
    (hinput : rule.vet decls input = .ok () → P input) (hs : s.Remembers P) :
    (∀ result, o = .ok result → P result) ∧ s'.Remembers P := by
  rcases h.vetted hidle with ⟨failure, -, rfl, rfl⟩ | ⟨hvet, fuel, henter⟩
  · exact ⟨nofun, hs⟩
  · have hruns := Reduction.run_keeps hP fuel hliterals (hinput hvet)
    have hkept := Reduction.enter_keeps hruns s hs
    rw [henter] at hkept
    cases o with
    | ok result =>
      obtain ⟨hresult, hs'⟩ := hkept
      exact ⟨fun _ heq => Except.ok.inj heq ▸ hresult, hs'⟩
    | error failure => exact ⟨nofun, hkept⟩

end

end Reshape
