import Reshape.Engine
import Reshape.Proofs.Reduction.Mirror

/-!
# The memo of an engine

An engine with a memo gives the results of one without (`Engine.memo_transparent`), whatever
calls were made before and however they ended. Its results may have their fields in another
order, as a record counts for all terms that are equal; and it may have results where the
other reaches a limit, as recalling one takes no steps and no frames.
-/

namespace Reshape

namespace Engine

variable {engine engine' engine₁ engine₂ : Engine} {rule : Rule} {input : Term} {o o₁ o₂ : Outcome Term}

/-! ## Calls -/

/-- A call of the engine comes to an end, and leaves it as `engine'`. -/
def Ends (engine : Engine) (rule : Rule) (input : Term) (o : Outcome Term) (engine' : Engine) : Prop :=
  ∃ session, rule.Ends engine.decls input (.ofMode engine.mode engine.memo) o session ∧
    engine' = { engine with memo := session.memo }

theorem reduce_eq_lift_iff :
    reduce rule input engine = Eval.lift o engine' ↔
      ∃ session, rule.reduce engine.decls input (.ofMode engine.mode engine.memo) =
        Eval.lift o session ∧ engine' = { engine with memo := session.memo } := by
  constructor
  · intro h
    unfold reduce at h
    match hreduce : rule.reduce engine.decls input (.ofMode engine.mode engine.memo) with
    | .ok result session =>
      rw [hreduce] at h
      obtain ⟨rfl, rfl⟩ := Eval.lift_injective (o := .ok result) h
      exact ⟨session, rfl, rfl⟩
    | .error (.failed failure) session =>
      rw [hreduce] at h
      obtain ⟨rfl, rfl⟩ := Eval.lift_injective (o := .error failure) h
      exact ⟨session, rfl, rfl⟩
    | .error .unfinished session =>
      rw [hreduce] at h
      exact absurd h.symm (Eval.lift_ne_unfinished _ _ _)
  · rintro ⟨session, h, rfl⟩
    unfold reduce
    rw [h]
    cases o <;> rfl

/-- An outcome of `reduce` is the end of the call. -/
theorem ends_of_reduce (h : reduce rule input engine = Eval.lift o engine') :
    engine.Ends rule input o engine' := by
  obtain ⟨session, hreduce, rfl⟩ := reduce_eq_lift_iff.1 h
  exact ⟨session, Rule.ends_of_reduce hreduce, rfl⟩

/-- With a budget, the end of a call is what `reduce` gives. -/
theorem ends_iff_reduce {budget : Nat} (hbudget : engine.mode.budget? = some budget) :
    engine.Ends rule input o engine' ↔ reduce rule input engine = Eval.lift o engine' := by
  refine ⟨?_, ends_of_reduce⟩
  rintro ⟨session, h, rfl⟩
  have hsession : (Session.ofMode engine.mode engine.memo).meter.budget = some budget := hbudget
  exact reduce_eq_lift_iff.2 ⟨session, (Rule.ends_iff_reduce hsession).1 h, rfl⟩

theorem Ends.unique (h₁ : engine.Ends rule input o₁ engine₁) (h₂ : engine.Ends rule input o₂ engine₂) :
    o₁ = o₂ ∧ engine₁ = engine₂ := by
  obtain ⟨session₁, h₁, rfl⟩ := h₁
  obtain ⟨session₂, h₂, rfl⟩ := h₂
  obtain ⟨rfl, rfl⟩ := h₁.unique h₂
  exact ⟨rfl, rfl⟩

/-- What the memo holds answers a call that passes, whatever is declared. -/
theorem exists_ends_of_get? (engine : Engine) {memo : Memo} {known : Term}
    (hmemo : engine.memo = some memo) (hvet : rule.vet engine.decls input = .ok ())
    (hknown : memo.get? rule input = some known) :
    ∃ engine', engine.Ends rule input (.ok known) engine' := by
  have hrecalled : (Session.ofMode engine.mode engine.memo).memo.bind (·.get? rule input) = some known := by
    rw [Session.ofMode, hmemo]
    exact hknown
  have henter : Reduction.enter (Reduction.run engine.decls 0) rule input
      (.ofMode engine.mode engine.memo) = Eval.lift (.ok known) _ := Reduction.enter_eq_recalled hrecalled
  exact ⟨_, _, Rule.ends_of_enter rfl hvet henter, rfl⟩

/-- `engine'` is the engine after calls that came to an end, with results or failures. -/
inductive Serves : Engine → List (Rule × Term) → Engine → Prop where
  | nil (engine : Engine) : Serves engine [] engine
  | cons {engine engine₁ engine' : Engine} {rule : Rule} {input : Term} {o : Outcome Term}
      {calls : List (Rule × Term)} :
      engine.Ends rule input o engine₁ → Serves engine₁ calls engine' →
      Serves engine ((rule, input) :: calls) engine'

/-- A call that the memo of an engine is for: the rule builds no keys while it maps fields, and
terms have distinct keys, as all terms have that are put together by `Composite.insert`. -/
structure Cacheable (call : Rule × Term) : Prop where
  keyless : call.1.Keyless
  rule : call.1.WellKeyed
  input : call.2.WellKeyed

theorem Cacheable.plain {call : Rule × Term} (h : Cacheable call) : call.1.Plain :=
  Rule.plain_of_keyless h.keyless h.rule

/-- Calls leave a correct memo correct, and start none. -/
theorem Serves.correct {calls : List (Rule × Term)} (h : engine.Serves calls engine')
    (hdecls : engine.decls.WellKeyed) (hcalls : ∀ call ∈ calls, Cacheable call)
    (hmemo : ∀ memo ∈ engine.memo, memo.Correct engine.decls) :
    ∃ memo, engine' = { engine with memo } ∧ (∀ m ∈ memo, m.Correct engine.decls) ∧
      (engine.memo = none → memo = none) := by
  induction h with
  | nil engine => exact ⟨engine.memo, rfl, hmemo, id⟩
  | cons hcall _ ih =>
    obtain ⟨session, hends, rfl⟩ := hcall
    have hfirst := hcalls _ List.mem_cons_self
    obtain ⟨hsession, hnone⟩ := hends.correct rfl hdecls hfirst.plain hfirst.input hmemo
    obtain ⟨memo, rfl, hcorrect, hnone'⟩ :=
      ih hdecls (fun call hmem => hcalls call (List.mem_cons_of_mem _ hmem)) hsession
    exact ⟨memo, rfl, hcorrect, fun h => hnone' (hnone h)⟩

/-! ## With and without a memo -/

/-- The memo of an engine makes no difference to results. Take an engine without a memo, any
calls, and the engine that has made these calls with a memo. Without a memo, the calls leave
the engine as it was; the result that it has for one more call, the engine with the memo has
as well, up to the order of fields; and for a result of the engine with the memo the other
has an equal one, or reaches a limit. -/
theorem memo_transparent (engine : Engine) (hmemo : engine.memo = none)
    (hdecls : engine.decls.WellKeyed) (calls : List (Rule × Term))
    (hcalls : ∀ call ∈ calls, Cacheable call) (memoized : Engine)
    (hmemoized : engine.startMemo.Serves calls memoized) (rule : Rule) (input : Term)
    (hcall : Cacheable (rule, input)) :
    (∀ engine', engine.Serves calls engine' → engine' = engine) ∧
    (∀ result engine', engine.Ends rule input (.ok result) engine' →
      ∃ result' memoized', memoized.Ends rule input (.ok result') memoized' ∧
        (result' == result) = true) ∧
    (∀ result' memoized', memoized.Ends rule input (.ok result') memoized' →
      ∃ o engine', engine.Ends rule input o engine' ∧
        ((∃ result, o = .ok result ∧ (result' == result) = true) ∨ o.hitLimit = true)) := by
  obtain ⟨decls, mode, _⟩ := engine
  obtain rfl : _ = none := hmemo
  have hnew : ∀ memo ∈ some ∅, Memo.Correct decls memo := by
    rintro _ ⟨⟩
    exact Memo.correct_empty decls
  obtain ⟨memo, rfl, hcorrect, -⟩ := hmemoized.correct hdecls hcalls hnew
  have hrule := hcall.plain
  have hinput := hcall.input
  refine ⟨fun engine' h => ?_, ?_, ?_⟩
  · obtain ⟨memo', rfl, -, hnone⟩ := h.correct hdecls hcalls nofun
    rw [hnone rfl]
  · rintro result _ ⟨session, hends, -⟩
    obtain ⟨hvet, hresult, cost, hy, hfits⟩ := hends.yields rfl hdecls hrule hinput nofun
    rcases hy.ends (s := .ofMode mode memo) hvet rfl hdecls hrule hinput hcorrect with
      ⟨result', session', hends', hresult', heq⟩ | ⟨hfull, -⟩
    · exact ⟨result', _, ⟨session', hends', rfl⟩, (Term.beq_iff hresult' hresult).2 heq.symm⟩
    · -- the limits are the same with a memo
      have hfits := hfits rfl
      exact absurd ⟨hfits.depth, hfits.steps⟩ hfull
  · rintro result' _ ⟨session, hends, -⟩
    obtain ⟨hvet, hresult', cost, hy, -⟩ := hends.yields rfl hdecls hrule hinput hcorrect
    rcases hy.ends (s := .ofMode mode none) hvet rfl hdecls hrule hinput nofun with
      ⟨result, session', hends', hresult, heq⟩ | ⟨-, o, session', hends', hlimit⟩
    · exact ⟨.ok result, _, ⟨session', hends', rfl⟩,
        .inl ⟨result, rfl, (Term.beq_iff hresult' hresult).2 heq⟩⟩
    · exact ⟨o, _, ⟨session', hends', rfl⟩, .inr hlimit⟩

/-- A pair of fields, wrapped. -/
def wrappedPair (first second : Entry Term) : Term := .seq [.composite [first, second]]

theorem bucketOf_wrappedPair (rule : Rule) (first second : Entry Term) :
    Memo.bucketOf rule (wrappedPair first second) = Memo.bucketOf rule (wrappedPair second first) := by
  have hfields : Term.digestEntries [first, second] = Term.digestEntries [second, first] := by
    simp only [Term.digestEntries]
    omega
  simp only [Memo.bucketOf, wrappedPair, Term.digest, Term.digestAll, hfields]

/-- A wrapped pair is unwrapped, and then once more with its fields in the other order: what the
memo holds for the first call answers the second one, and is equal to what it comes to without a
memo. -/
theorem unwrapping_twice :
    ∃ memoized memo result memoized',
      Engine.Serves (startMemo {})
        [(unwrapping, wrappedPair ⟨"a", .text "x", {}⟩ ⟨"b", .text "y", {}⟩)] memoized ∧
      memoized.memo = some memo ∧
      memo.get? unwrapping (wrappedPair ⟨"b", .text "y", {}⟩ ⟨"a", .text "x", {}⟩) = some result ∧
      memoized.Ends unwrapping (wrappedPair ⟨"b", .text "y", {}⟩ ⟨"a", .text "x", {}⟩) (.ok result)
        memoized' ∧
      (result == .composite [⟨"b", .text "y", {}⟩, ⟨"a", .text "x", {}⟩]) = true := by
  have hcacheable : ∀ first second : Entry Term, first.key ≠ second.key → first.value.WellKeyed →
      second.value.WellKeyed → Cacheable (unwrapping, wrappedPair first second) := by
    intro first second hkeys hfirst hsecond
    refine ⟨?_, ?_, ?_⟩
    · show ∀ part ∈ unwrapping.parts, part.isKeyed = false
      decide
    · intro term hterm
      cases hterm
    · simp [wrappedPair, Composite.Distinct, Composite.keys, hkeys, hfirst, hsecond]
  let a : Entry Term := ⟨"a", .text "x", {}⟩
  let b : Entry Term := ⟨"b", .text "y", {}⟩
  let memo : Memo := .insert ∅ unwrapping (wrappedPair a b) (.composite [a, b])
  have hserves : Engine.Serves (startMemo {}) [(unwrapping, wrappedPair a b)] { memo := some memo } :=
    .cons (o := .ok (.composite [a, b])) ⟨_, ⟨2, rfl⟩, rfl⟩ (.nil _)
  have hknown : memo.get? unwrapping (wrappedPair b a) = some (.composite [a, b]) :=
    Memo.get?_insert_empty (bucketOf_wrappedPair unwrapping a b) rfl
  obtain ⟨_, hrecalled⟩ := exists_ends_of_get? { memo := some memo } rfl rfl hknown
  have hdecls : Declarations.WellKeyed ∅ := by
    intro name shape hget
    cases hget
  have hsame := (memo_transparent {} rfl hdecls [(unwrapping, wrappedPair a b)]
    (List.forall_mem_singleton.2 (hcacheable _ _ (by decide) trivial trivial)) _ hserves
    unwrapping (wrappedPair b a) (hcacheable _ _ (by decide) trivial trivial)).2.1
    (.composite [b, a]) _ ⟨_, ⟨2, rfl⟩, rfl⟩
  obtain ⟨result, memoized', hresult, heq⟩ := hsame
  obtain rfl : result = .composite [a, b] := Except.ok.inj (hresult.unique hrecalled).1
  exact ⟨_, memo, _, memoized', hserves, rfl, hknown, hresult, heq⟩

end Engine

end Reshape
