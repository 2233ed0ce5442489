import Reshape.Proofs.Reduction.Conditions
import Reshape.Proofs.Reduction.Limits
import Reshape.Proofs.Reduction.Memo
import Reshape.Proofs.Rule.Validity
import Reshape.Proofs.Template.Contracts

/-!
# Reductions with rules that honour their contracts

A run of a rule that honours its contracts, on a term that one of them takes, fails for two causes
only: it reaches a limit, or feeds back a term that is not smaller; and its result is as the contract
says (`Reduction.run_upholds`). So it is for whole reductions (`Rule.Ends.obeys`).

That needs the results in the memo to be as the contracts of their rules say (`Memo.Honours`). All
reductions keep it so, whatever their rules are, because a rule that honours its contracts does so
wherever it is called. The contracts do not depend on declarations, so neither does this.
-/

namespace Reshape

/-- Whether recursion is at fault: it reaches a limit, or feeds back a term that is not smaller. -/
def Cause.blamesRecursion : Cause → Bool
  | .limitReached .. | .notShrinking _ => true
  | _ => false

theorem Cause.blamesRecursion_cases {cause : Cause} (h : cause.blamesRecursion = true) :
    (∃ limit max, cause = .limitReached limit max) ∨ ∃ rule, cause = .notShrinking rule := by
  cases cause with
  | limitReached limit max => exact .inl ⟨limit, max, rfl⟩
  | notShrinking rule => exact .inr ⟨rule, rfl⟩
  | _ => cases h

/-- If the rule honours its contracts, the output on the input is as they say. -/
def Rule.Gives (contracts : Contracts) (rule : Rule) (input output : Term) : Prop :=
  rule.honours contracts = true → ∀ contract ∈ contracts rule.name,
    contract.takes.admits input = true → contract.gives.admits output = true

/-- The results in the memo are as the contracts of their rules say. -/
def Memo.Honours (contracts : Contracts) (memo : Memo) : Prop :=
  ∀ number, ∀ record ∈ memo.bucket number, record.rule.Gives contracts record.input record.output

/-- The results that the session remembers are as the contracts of their rules say. -/
def Session.Honours (contracts : Contracts) (s : Session) : Prop :=
  ∀ memo ∈ s.memo, memo.Honours contracts

/-! ## Memos -/

section

variable {contracts : Contracts} {rule : Rule} {input output : Term} {memo : Memo}

/-- A record is as the contracts say for all that it is found for, or for nothing. -/
theorem MemoRecord.gives_iff {record : MemoRecord} (h : record.isFor rule input = true)
    (output : Term) :
    record.rule.Gives contracts record.input output ↔ rule.Gives contracts input output := by
  rw [isFor, Bool.and_eq_true] at h
  have hrule : record.rule.honours contracts = rule.honours contracts := record.rule.honours_eq_of_beq h.2
  have hname := Rule.name_eq_of_beq h.2
  have hinput := fun contract : Contract => contract.takes.admits_eq_of_beq h.1
  simp only [Rule.Gives, hrule, hname, hinput]

namespace Memo

theorem honours_empty (contracts : Contracts) : Honours contracts ∅ := by
  intro number record hmem
  rw [bucket_empty] at hmem
  cases hmem

theorem Honours.get? (h : memo.Honours contracts) (hget : memo.get? rule input = some output) :
    rule.Gives contracts input output := by
  obtain ⟨record, hmem, hfor, rfl⟩ := exists_of_get? hget
  exact (record.gives_iff hfor _).1 (h _ record hmem)

theorem Honours.insert (h : memo.Honours contracts) (hgives : rule.Gives contracts input output) :
    (memo.insert rule input output).Honours contracts := by
  intro number record hmem
  rcases mem_bucket_insert hmem with rfl | hold | ⟨old, -, hfor, rfl⟩
  · exact hgives
  · exact h number record hold
  · exact (old.gives_iff hfor output).2 hgives

end Memo

end

/-! ## Runs -/

namespace Reduction

variable {α : Type} {contracts : Contracts} {fails : Cause → Prop} {gives : α → Prop}
  {runs : Rule → Term → Eval Session Term}

/-- If the session remembers what contracts say, it does so afterwards as well; a value is as the
condition says, and a failure has such a cause. -/
abbrev Obeys (contracts : Contracts) (fails : Cause → Prop) (gives : α → Prop) (x : Eval Session α) :
    Prop :=
  x.Respects (·.Honours contracts) (fun failure => fails failure.cause) gives

/-- Recursion may be at fault. -/
abbrev Tolerates (fails : Cause → Prop) : Prop := ∀ cause, cause.blamesRecursion = true → fails cause

theorem ofMemo_honours (contracts : Contracts) : OfMemo (·.Honours contracts) := by
  intro s s' hmemo hs
  rwa [Session.Honours, hmemo]

section

variable (hfails : Tolerates fails)

include hfails

theorem spendStep_obeys : Obeys contracts fails (fun _ => True) spendStep :=
  spendStep_respects (ofMemo_honours contracts) fun _ => hfails _ rfl

theorem admitFeedback_obeys (rule : Rule) (input next : Term) :
    Obeys contracts fails (fun _ => True) (Eval.lift (rule.admitFeedback input next)) :=
  admitFeedback_respects input next (hfails _ rfl)

/-- If running the rule gives what its contracts say, so does entering it: a result that is known
was remembered so. -/
theorem enter_obeys {rule : Rule} {term : Term}
    (h : Obeys contracts fails (rule.Gives contracts term) (runs rule term)) :
    Obeys contracts fails (rule.Gives contracts term) (enter runs rule term) := by
  have hknown : Obeys contracts fails (fun known => ∀ output ∈ known, rule.Gives contracts term output)
      (known? rule term) := by
    refine Eval.Respects.get.bind fun s hs => .pure fun output hget => ?_
    obtain ⟨memo, hmemo, hget⟩ := Option.bind_eq_some_iff.1 hget
    exact (hs memo hmemo).get? hget
  refine hknown.bind fun known hgives => ?_
  cases known with
  | some known => exact (tick_respects (ofMemo_honours contracts) _).bind fun _ _ => .pure (hgives known rfl)
  | none =>
    have hpush : Obeys contracts fails (fun _ => True) (pushFrame rule.name) :=
      pushFrame_respects (ofMemo_honours contracts) rule.name fun _ => hfails _ rfl
    have hrun := hpush.bind fun _ _ => thenPop_respects (ofMemo_honours contracts) h
    have hleft := hrun.leaving rule.name fun failure hcause => by rwa [Failure.cause_leaving]
    refine hleft.bind fun output hout => Eval.Respects.bind (.modify fun s hs => ?_) fun _ _ => .pure hout
    intro memo hmemo
    obtain ⟨old, hold, rfl⟩ := Option.map_eq_some_iff.1 hmemo
    exact (hs old hold).insert hout

end

/-- Whatever the rule, running it keeps what is remembered as contracts say; and a rule that honours
its contracts, on a term that one of them takes, gives what it says, or recursion is at fault. -/
structure Upholds (contracts : Contracts) (runs : Rule → Term → Eval Session Term) : Prop where
  any : ∀ rule term, Obeys contracts (fun _ => True) (fun _ => True) (runs rule term)
  under : ∀ {rule : Rule} {contract : Contract} {term : Term}, rule.honours contracts = true →
    contract ∈ contracts rule.name → contract.takes.admits term = true →
    Obeys contracts (·.blamesRecursion = true) (contract.gives.admits · = true) (runs rule term)

namespace Upholds

/-- Each of the contracts that take the term says something of the same value. -/
theorem obeys_gives (h : Upholds contracts runs) {rule : Rule} {term : Term}
    (hruns : Obeys contracts fails (fun _ => True) (runs rule term)) :
    Obeys contracts fails (rule.Gives contracts term) (runs rule term) := by
  intro s hs
  have hx := hruns s hs
  cases hrun : runs rule term s with
  | ok value s₁ =>
    rw [hrun] at hx
    refine ⟨fun hrule contract hcontract hterm => ?_, hx.2⟩
    have hunder := h.under hrule hcontract hterm s hs
    rw [hrun] at hunder
    exact hunder.1
  | error halt s₁ =>
    rw [hrun] at hx
    exact hx

theorem enter_any (h : Upholds contracts runs) (rule : Rule) (term : Term) :
    Obeys contracts (fun _ => True) (rule.Gives contracts term) (enter runs rule term) :=
  enter_obeys (fun _ _ => trivial) (h.obeys_gives (h.any rule term))

theorem enter_under (h : Upholds contracts runs) {rule : Rule} {contract : Contract} {term : Term}
    (hrule : rule.honours contracts = true) (hcontract : contract ∈ contracts rule.name)
    (hterm : contract.takes.admits term = true) :
    Obeys contracts (·.blamesRecursion = true) (contract.gives.admits · = true)
      (enter runs rule term) := by
  have hruns := (h.under hrule hcontract hterm).mono (fun _ _ => trivial) fun _ => id
  exact (enter_obeys (fun _ => id) (h.obeys_gives hruns)).mono
    (fun _ hgives => hgives hrule contract hcontract hterm) fun _ => id

end Upholds

theorem answer_any (h : Upholds contracts runs) (rule : Rule) (input : Term) (request : Request) :
    Obeys contracts (fun _ => True) (fun _ => True) (answer runs rule input request) := by
  have henter : ∀ called term,
      Obeys contracts (fun _ => True) (fun _ => True) (enter runs called term) := fun called term =>
    (h.enter_any called term).mono (fun _ _ => trivial) fun _ => id
  cases request with
  | self next =>
    exact (admitFeedback_obeys (fun _ _ => trivial) rule input next).bind fun _ _ => henter rule next
  | call called term => exact henter called term

theorem answer_under (h : Upholds contracts runs) {rule : Rule} {input : Term} {request : Request}
    {contract : Contract} (hrule : rule.honours contracts = true)
    (hrequest : request.Under contracts (contracts rule.name) contract) :
    Obeys contracts (·.blamesRecursion = true) (contract.gives.admits · = true)
      (answer runs rule input request) := by
  cases request with
  | self next =>
    exact (admitFeedback_obeys (fun _ => id) rule input next).bind fun _ _ =>
      h.enter_under hrule hrequest.1 hrequest.2
  | call called term => exact h.enter_under hrequest.1 hrequest.2.1 hrequest.2.2

theorem exec_any {ask : Request → Eval Session Term} (plan : Plan α)
    (hask : ∀ request, Obeys contracts (fun _ => True) (fun _ => True) (ask request)) :
    Obeys contracts (fun _ => True) (fun _ => True) (plan.exec observe ask) := by
  induction plan with
  | done value => exact .pure trivial
  | fail failure => exact fun _ hs => ⟨fun _ _ => trivial, hs⟩
  | note n rest ih => exact (observe_respects (ofMemo_honours contracts) n).bind fun _ _ => ih
  | ask request next ih => exact (hask request).bind fun answer _ => ih answer

theorem exec_delivers {own : List Contract} {plan : Plan α} {ask : Request → Eval Session Term}
    (h : plan.Delivers contracts own gives)
    (hask : ∀ {request : Request} {contract : Contract}, request.Under contracts own contract →
      Obeys contracts fails (contract.gives.admits · = true) (ask request)) :
    Obeys contracts fails gives (plan.exec observe ask) := by
  induction h with
  | done hvalue => exact .pure hvalue
  | note _ ih => exact (observe_respects (ofMemo_honours contracts) _).bind fun _ _ => ih
  | ask hrequest _ ih => exact (hask hrequest).bind fun answer hanswer => ih answer hanswer

/-- Runs uphold contracts. -/
theorem run_upholds (contracts : Contracts) (decls : Declarations) (fuel : Nat) :
    Upholds contracts (run decls fuel) := by
  have hcut : ∀ {gives : Term → Prop} {fails : Cause → Prop} (rule : Rule) (term : Term),
      Obeys contracts fails gives (run decls 0 rule term) :=
    fun _ _ _ hs => ⟨nofun, hs⟩
  induction fuel with
  | zero => exact ⟨hcut, fun _ _ _ => hcut _ _⟩
  | succ fuel ih =>
    constructor
    · intro rule input
      refine (spendStep_obeys fun _ _ => trivial).bind fun _ _ => ?_
      refine (exec_any _ (answer_any ih rule input)).bind fun step _ => ?_
      cases step with
      | done result => exact .pure trivial
      | again next =>
        refine (admitFeedback_obeys (fun _ _ => trivial) rule input next).bind fun _ _ => ?_
        exact (tick_respects (ofMemo_honours contracts) _).bind fun _ _ => ih.any rule next
    · intro rule contract input hrule hcontract hinput
      have hstep := rule.step_delivers decls hrule hcontract hinput
      refine (spendStep_obeys fun _ => id).bind fun _ _ => ?_
      refine (exec_delivers hstep fun hrequest => answer_under ih hrule hrequest).bind fun step h => ?_
      cases step with
      | done result => exact .pure h
      | again next =>
        obtain ⟨other, hother, hnext, hgives⟩ := h
        refine (admitFeedback_obeys (fun _ => id) rule input next).bind fun _ _ => ?_
        refine (tick_respects (ofMemo_honours contracts) _).bind fun _ _ => ?_
        exact (ih.under hrule hother hnext).mono (fun _ => Outline.admits_of_implies hgives) fun _ => id

end Reduction

/-- Reductions leave in the memo what contracts say, and their results are so. If the rule honours its
contracts, and takes any term, a failure after the checks blames recursion. -/
theorem Rule.Ends.obeys {contracts : Contracts} {rule : Rule} {decls : Declarations} {input : Term}
    {s s' : Session} {o : Outcome Term} (h : rule.Ends decls input s o s') (hidle : s.Idle)
    (hs : s.Honours contracts) :
    s'.Honours contracts ∧ (∀ result, o = .ok result → rule.Gives contracts input result) ∧
      (rule.vet decls input = .ok () → rule.honours contracts = true → contracts.TakesAny rule.name →
        ∀ failure, o = .error failure → failure.cause.blamesRecursion = true) := by
  rcases h.vetted hidle with ⟨failure, hvet, rfl, rfl⟩ | ⟨-, fuel, henter⟩
  · exact ⟨hs, nofun, fun hvetted => nomatch hvet.symm.trans hvetted⟩
  · have hruns := Reduction.run_upholds contracts decls fuel
    have hany := hruns.enter_any rule input s hs
    rw [henter] at hany
    cases o with
    | ok result =>
      refine ⟨hany.2, ?_, nofun⟩
      rintro _ ⟨⟩
      exact hany.1
    | error failure =>
      refine ⟨hany.2, nofun, ?_⟩
      rintro - hrule ⟨gives, hcontract⟩ _ ⟨⟩
      have hinput : Outline.any.admits input = true := rfl
      have hunder := hruns.enter_under hrule hcontract hinput s hs
      rw [henter] at hunder
      exact hunder.1 failure rfl

end Reshape
