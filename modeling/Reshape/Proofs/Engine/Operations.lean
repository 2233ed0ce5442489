import Reshape.Proofs.Engine.Memo
import Reshape.Proofs.Library.Recipes
import Reshape.Proofs.Reduction.Conclusion

/-!
# Operations on an engine

Over its life an engine is given declarations, starts memos and is called. Its memo is
good for the declarations that it was filled under: it becomes stale when the engine is
redeclared after a call, and stays so until another memo is started. As long as the memo is
not stale, a result of the engine is the one of a new engine without a memo that has the
same declarations and limits (`Engine.answers_as_fresh`), whatever was done before.

A stale memo does answer, with results of earlier declarations
(`Engine.stale_memo_answers`).

An engine that has no memo answers a call as a new session does
(`Engine.answersWithin_of_endsWithin`).
-/

namespace Reshape

/-- A call of an engine, of any rule or of a rule of the library. -/
inductive Call where
  | reduce (rule : Rule) (input : Term)
  | apply (entry : LibraryRule) (args : List Term) (input : Term)

/-- What can be done with an engine. -/
inductive Operation where
  | startMemo
  | redeclare (decls : Declarations)
  | run (call : Call)

/-- Whether a memo is for the present declarations: there is none, it has no records yet, it
has records made under the present declarations, or it may have others. -/
inductive Standing where
  | absent
  | empty
  | filled
  | stale
  deriving DecidableEq, Repr

/-- What an operation makes of the standing of a memo. -/
def Standing.next : Standing → Operation → Standing
  | _, .startMemo => .empty
  | .filled, .redeclare _ => .stale
  | standing, .redeclare _ => standing
  | .empty, .run _ => .filled
  | standing, .run _ => standing

/-- The standing of a memo after operations, from that before them. -/
def Standing.after (standing : Standing) (operations : List Operation) : Standing :=
  operations.foldl next standing

/-- A call that the memo of an engine is for: no rule in it builds keys while it maps fields, and
its terms have distinct keys. -/
def Call.Cacheable : Call → Prop
  | .reduce rule input => Engine.Cacheable (rule, input)
  | .apply entry args input =>
    entry ≠ .uppercaseKeys ∧ (∀ arg ∈ args, arg.WellKeyed) ∧ input.WellKeyed

/-- An operation whose terms have distinct keys, and that builds no keys while it maps fields. -/
def Operation.Cacheable : Operation → Prop
  | .startMemo => True
  | .redeclare decls => decls.WellKeyed
  | .run call => call.Cacheable

namespace Engine

variable {engine engine' engine₁ engine₂ : Engine} {o o₁ o₂ : Outcome Term} {call : Call}

/-- A call comes to an end, and leaves the engine as `engine'`. -/
inductive Answers (engine : Engine) : Call → Outcome Term → Engine → Prop where
  | reduce {rule : Rule} {input : Term} {o : Outcome Term} {engine' : Engine} :
      engine.Ends rule input o engine' → Answers engine (.reduce rule input) o engine'
  | unbuilt {entry : LibraryRule} {args : List Term} {input : Term} {failure : Failure} :
      engine.rule entry args = .error failure →
      Answers engine (.apply entry args input) (.error failure) engine
  | apply {entry : LibraryRule} {args : List Term} {input : Term} {rule : Rule} {o : Outcome Term}
      {engine' : Engine} :
      engine.rule entry args = .ok rule → engine.Ends rule input o engine' →
      Answers engine (.apply entry args input) o engine'

theorem Answers.unique (h₁ : engine.Answers call o₁ engine₁) (h₂ : engine.Answers call o₂ engine₂) :
    o₁ = o₂ ∧ engine₁ = engine₂ := by
  cases h₁ with
  | reduce h₁ =>
    cases h₂ with
    | reduce h₂ => exact h₁.unique h₂
  | unbuilt h₁ =>
    cases h₂ with
    | unbuilt h₂ =>
      cases h₁.symm.trans h₂
      exact ⟨rfl, rfl⟩
    | apply hrule _ => cases h₁.symm.trans hrule
  | apply hrule h₁ =>
    cases h₂ with
    | unbuilt h₂ => cases hrule.symm.trans h₂
    | apply hrule' h₂ =>
      cases hrule.symm.trans hrule'
      exact h₁.unique h₂

/-- `engine'` is what becomes of the engine after operations, all of whose calls came to an end. -/
inductive Operates : Engine → List Operation → Engine → Prop where
  | nil (engine : Engine) : Operates engine [] engine
  | startMemo {engine engine' : Engine} {operations : List Operation} :
      Operates engine.startMemo operations engine' →
      Operates engine (.startMemo :: operations) engine'
  | redeclare {engine engine' : Engine} {decls : Declarations} {operations : List Operation} :
      Operates (engine.redeclare decls) operations engine' →
      Operates engine (.redeclare decls :: operations) engine'
  | run {engine engine₁ engine' : Engine} {call : Call} {o : Outcome Term}
      {operations : List Operation} :
      engine.Answers call o engine₁ → Operates engine₁ operations engine' →
      Operates engine (.run call :: operations) engine'

theorem apply_eq_bind (entry : LibraryRule) (args : List Term) (input : Term) (engine : Engine) :
    apply entry args input engine =
      (Eval.lift (engine.rule entry args) >>= fun rule => reduce rule input) engine := rfl

/-- An outcome of `apply` is the answer to the call. -/
theorem answers_of_apply {entry : LibraryRule} {args : List Term} {input : Term}
    (h : apply entry args input engine = Eval.lift o engine') :
    engine.Answers (.apply entry args input) o engine' := by
  rw [apply_eq_bind, Eval.bind_apply] at h
  cases hrule : engine.rule entry args with
  | error failure =>
    rw [hrule] at h
    obtain ⟨rfl, rfl⟩ := Eval.lift_injective (o := .error failure) h
    exact .unbuilt hrule
  | ok rule =>
    rw [hrule] at h
    exact .apply hrule (ends_of_reduce h)

/-- With a budget, the answer to the call is what `apply` gives. -/
theorem Answers.apply_eq {entry : LibraryRule} {args : List Term} {input : Term}
    (h : engine.Answers (.apply entry args input) o engine') (hbudget : engine.mode.budget? ≠ none) :
    Engine.apply entry args input engine = Eval.lift o engine' := by
  obtain ⟨budget, hbudget⟩ := Option.ne_none_iff_exists'.1 hbudget
  rw [apply_eq_bind, Eval.bind_apply]
  cases h with
  | unbuilt hrule =>
    rw [hrule]
    rfl
  | apply hrule hends =>
    rw [hrule]
    exact (ends_iff_reduce hbudget).1 hends

/-- A call comes to the result if the limits of the engine allow for the cost, and reaches a limit if
they do not. -/
def AnswersWithin (engine : Engine) (call : Call) (result : Term) (cost : Cost) : Prop :=
  ∃ o engine', engine.Answers call o engine' ∧ (o = .ok result ∨ o.hitLimit = true) ∧
    (o = .ok result ↔ cost.depth ≤ engine.mode.maxDepth ∧
      ∀ budget ∈ engine.mode.budget?, cost.steps ≤ budget)

theorem answersWithin_of_endsWithin {entry : LibraryRule} {args : List Term} {input result : Term}
    {rule : Rule} {cost : Cost} (hmemo : engine.memo = none) (hrule : engine.rule entry args = .ok rule)
    (h : rule.EndsWithin engine.decls engine.mode input result cost) :
    engine.AnswersWithin (.apply entry args input) result cost := by
  obtain ⟨o, session, hends, houtcome⟩ := h
  rw [← hmemo] at hends
  exact ⟨o, _, .apply hrule ⟨session, hends, rfl⟩, houtcome⟩

/-- What the standing of the memo says about an engine. -/
def Stands (engine : Engine) : Standing → Prop
  | .absent => engine.memo = none
  | .empty => engine.memo = some ∅
  | .filled => ∀ memo ∈ engine.memo, memo.Correct engine.decls
  | .stale => True

/-- A memo that is not stale is correct. -/
theorem Stands.correct {standing : Standing} (h : engine.Stands standing) (hstale : standing ≠ .stale) :
    ∀ memo ∈ engine.memo, memo.Correct engine.decls := by
  cases standing with
  | absent =>
    have hnone : engine.memo = none := h
    rw [hnone]
    exact nofun
  | empty =>
    have hempty : engine.memo = some ∅ := h
    rw [hempty]
    rintro _ ⟨⟩
    exact Memo.correct_empty engine.decls
  | filled => exact h
  | stale => exact absurd rfl hstale

theorem build_of_rule {entry : LibraryRule} {args : List Term} {rule : Rule}
    (h : engine.rule entry args = .ok rule) : entry.build args = .ok rule :=
  (bind_eq_ok h).2

/-- The rule that a cacheable call is answered with is cacheable. -/
theorem cacheable_of_rule {entry : LibraryRule} {args : List Term} {input : Term} {rule : Rule}
    (hcall : Call.Cacheable (.apply entry args input)) (hrule : engine.rule entry args = .ok rule) :
    Cacheable (rule, input) :=
  have hbuild := build_of_rule hrule
  ⟨LibraryRule.keyless_of_build hbuild hcall.1, LibraryRule.wellKeyed_of_build hbuild hcall.2.1,
    hcall.2.2⟩

/-- A call keeps declarations and limits, keeps a correct memo correct, and starts none. -/
theorem Ends.correct {rule : Rule} {input : Term} (h : engine.Ends rule input o engine')
    (hcall : Cacheable (rule, input)) (hdecls : engine.decls.WellKeyed)
    (hmemo : ∀ memo ∈ engine.memo, memo.Correct engine.decls) :
    ∃ memo, engine' = { engine with memo } ∧ (∀ m ∈ memo, m.Correct engine.decls) ∧
      (engine.memo = none → memo = none) :=
  (Serves.cons h (.nil engine')).correct hdecls (List.forall_mem_singleton.2 hcall) hmemo

theorem Answers.correct (h : engine.Answers call o engine') (hcall : call.Cacheable)
    (hdecls : engine.decls.WellKeyed) (hmemo : ∀ memo ∈ engine.memo, memo.Correct engine.decls) :
    ∃ memo, engine' = { engine with memo } ∧ (∀ m ∈ memo, m.Correct engine.decls) ∧
      (engine.memo = none → memo = none) := by
  cases h with
  | reduce h => exact h.correct hcall hdecls hmemo
  | unbuilt h => exact ⟨engine.memo, rfl, hmemo, id⟩
  | apply hrule h => exact h.correct (cacheable_of_rule hcall hrule) hdecls hmemo

/-- A call keeps declarations and limits. -/
theorem Answers.kept (h : engine.Answers call o engine') : ∃ memo, engine' = { engine with memo } := by
  cases h with
  | reduce h | apply _ h =>
    obtain ⟨session, -, rfl⟩ := h
    exact ⟨session.memo, rfl⟩
  | unbuilt h => exact ⟨engine.memo, rfl⟩

/-- A call leaves the memo as it says. -/
theorem Stands.run {standing : Standing} (hstands : engine.Stands standing)
    (h : engine.Answers call o engine') (hcall : call.Cacheable) (hdecls : engine.decls.WellKeyed) :
    engine'.Stands (standing.next (.run call)) := by
  by_cases hstale : standing = .stale
  · subst hstale
    trivial
  · obtain ⟨memo, rfl, hcorrect, hnone⟩ := h.correct hcall hdecls (hstands.correct hstale)
    cases standing with
    | absent => exact hnone hstands
    | empty | filled => exact hcorrect
    | stale => trivial

/-- Redeclaring leaves the memo as it says. -/
theorem Stands.redeclare {standing : Standing} (hstands : engine.Stands standing)
    (decls : Declarations) :
    (engine.redeclare decls).Stands (standing.next (.redeclare decls)) := by
  cases standing with
  | absent | empty => exact hstands
  | filled | stale => trivial

/-- After operations the memo stands as they say. -/
theorem Operates.stands {operations : List Operation} {standing : Standing}
    (h : engine.Operates operations engine') (hstands : engine.Stands standing)
    (hdecls : engine.decls.WellKeyed) (hoperations : ∀ operation ∈ operations, operation.Cacheable) :
    engine'.Stands (standing.after operations) ∧ engine'.decls.WellKeyed := by
  induction h generalizing standing with
  | nil engine => exact ⟨hstands, hdecls⟩
  | @startMemo engine _ _ _ ih =>
    have hempty : engine.startMemo.Stands .empty := rfl
    exact ih hempty hdecls (List.forall_mem_cons.1 hoperations).2
  | redeclare _ ih =>
    obtain ⟨hfirst, hrest⟩ := List.forall_mem_cons.1 hoperations
    exact ih (hstands.redeclare _) hfirst hrest
  | run hanswers _ ih =>
    obtain ⟨hfirst, hrest⟩ := List.forall_mem_cons.1 hoperations
    have hnext := hstands.run hanswers hfirst hdecls
    obtain ⟨memo, rfl⟩ := hanswers.kept
    exact ih hnext hdecls hrest

/-- The engine as new: without a memo. -/
def renew (engine : Engine) : Engine := { decls := engine.decls, mode := engine.mode }

/-- A result that is had with a correct memo is had without one, unless that reaches a limit. -/
theorem Ends.renewed {rule : Rule} {input result : Term}
    (h : engine.Ends rule input (.ok result) engine') (hcall : Cacheable (rule, input))
    (hdecls : engine.decls.WellKeyed) (hmemo : ∀ memo ∈ engine.memo, memo.Correct engine.decls) :
    ∃ o engine₁, engine.renew.Ends rule input o engine₁ ∧
      ((∃ fresh, o = .ok fresh ∧ (result == fresh) = true) ∨ o.hitLimit = true) := by
  obtain ⟨session, hends, -⟩ := h
  obtain ⟨hvet, hresult, cost, hy, -⟩ := hends.yields rfl hdecls hcall.plain hcall.input hmemo
  rcases hy.ends (s := .ofMode engine.mode none) hvet rfl hdecls hcall.plain hcall.input nofun with
    ⟨fresh, session', hends', hfresh, heq⟩ | ⟨-, o, session', hends', hlimit⟩
  · exact ⟨.ok fresh, _, ⟨session', hends', rfl⟩,
      .inl ⟨fresh, rfl, (Term.beq_iff hresult hfresh).2 heq⟩⟩
  · exact ⟨o, _, ⟨session', hends', rfl⟩, .inr hlimit⟩

/-- As long as the memo is not stale, the results of an engine are those of a new one. Take an
engine without a memo and any operations after which a memo is not stale. A result of the next
call is the result, up to the order of fields, that a new engine has which has no memo and the
present declarations and limits; or the new engine reaches a limit. -/
theorem answers_as_fresh (engine : Engine) (hmemo : engine.memo = none)
    (hdecls : engine.decls.WellKeyed) (operations : List Operation)
    (hoperations : ∀ operation ∈ operations, operation.Cacheable)
    (hstale : Standing.absent.after operations ≠ .stale) (present : Engine)
    (hoperates : engine.Operates operations present) (call : Call) (hcall : call.Cacheable)
    (result : Term) (later : Engine) (hanswers : present.Answers call (.ok result) later) :
    ∃ o later', Answers { decls := present.decls, mode := present.mode } call o later' ∧
      ((∃ fresh, o = .ok fresh ∧ (result == fresh) = true) ∨ o.hitLimit = true) := by
  have hstands : engine.Stands .absent := hmemo
  obtain ⟨hpresent, hdecls'⟩ := hoperates.stands hstands hdecls hoperations
  have hcorrect := hpresent.correct hstale
  cases hanswers with
  | reduce h =>
    obtain ⟨o, later', h', hsame⟩ := h.renewed hcall hdecls' hcorrect
    exact ⟨o, later', .reduce h', hsame⟩
  | apply hrule h =>
    obtain ⟨o, later', h', hsame⟩ := h.renewed (cacheable_of_rule hcall hrule) hdecls' hcorrect
    exact ⟨o, later', .apply hrule h', hsame⟩

/-- The name `A` for the sequence of one number. -/
def named (n : Int64) : Declarations := (∅ : Declarations).declare "A" (.seq [.int n])

theorem wellKeyed_named (n : Int64) : (named n).WellKeyed :=
  Declarations.wellKeyed_empty.declare "A" (by simp [Term.int])

/-- The call for the first element of what `A` stands for. -/
def firstOfA : Call := .apply .first [] (.ref "A")

/-- The memo after the first such call. -/
def recorded (n : Int64) : Memo := Memo.insert ∅ Library.first (.ref "A") (.int n)

theorem ends_firstOfA (n : Int64) :
    Ends { decls := named n, memo := some ∅ } Library.first (.ref "A") (.ok (.int n))
      { decls := named n, memo := some (recorded n) } := ⟨_, ⟨1, rfl⟩, rfl⟩

/-- Another memo is started after redeclaring, so the result is that of a new engine. -/
theorem restarted_memo_answers :
    ∃ present later, Operates {}
        [.redeclare (named 1), .startMemo, .run firstOfA, .redeclare (named 2), .startMemo]
        present ∧
      present.Answers firstOfA (.ok (.int 2)) later ∧
      ∃ o later', Answers { decls := present.decls, mode := present.mode } firstOfA o later' ∧
        ((∃ fresh, o = .ok fresh ∧ (Term.int 2 == fresh) = true) ∨ o.hitLimit = true) := by
  have hoperates : Operates {}
      [.redeclare (named 1), .startMemo, .run firstOfA, .redeclare (named 2), .startMemo]
      { decls := named 2, memo := some ∅ } :=
    .redeclare (.startMemo (.run (.apply rfl (ends_firstOfA 1)) (.redeclare (.startMemo (.nil _)))))
  have hcall : firstOfA.Cacheable := ⟨by decide, List.forall_mem_nil _, trivial⟩
  have hanswers : Answers { decls := named 2, memo := some ∅ } firstOfA (.ok (.int 2))
      { decls := named 2, memo := some (recorded 2) } := .apply rfl (ends_firstOfA 2)
  refine ⟨_, _, hoperates, hanswers, ?_⟩
  refine answers_as_fresh {} rfl Declarations.wellKeyed_empty _ ?_ (by decide) _ hoperates firstOfA hcall (.int 2) _ hanswers
  simp only [List.forall_mem_cons, Operation.Cacheable, wellKeyed_named, hcall]
  simp

/-! ## A stale memo -/

/-- A memo that is stale answers for declarations that are no longer there: the engine gives the
first element of what `A` stood for when it was called before, and a new engine the first
element of what `A` stands for now. -/
theorem stale_memo_answers :
    ∃ present later, Operates {}
        [.redeclare (named 1), .startMemo, .run firstOfA, .redeclare (named 2)] present ∧
      present.decls = named 2 ∧ present.Answers firstOfA (.ok (.int 1)) later ∧
      ∀ o later', Answers { decls := present.decls, mode := present.mode } firstOfA o later' →
        o = .ok (.int 2) := by
  have hknown : (recorded 1).get? Library.first (.ref "A") = some (.int 1) :=
    Memo.get?_insert_empty rfl rfl
  obtain ⟨later, hrecall⟩ := exists_ends_of_get? { decls := named 2, memo := some (recorded 1) }
    rfl rfl hknown
  have hfresh : Ends { decls := named 2 } Library.first (.ref "A") (.ok (.int 2))
      { decls := named 2 } := ⟨_, ⟨1, rfl⟩, rfl⟩
  refine ⟨{ decls := named 2, memo := some (recorded 1) }, _,
    .redeclare (.startMemo (.run (.apply rfl (ends_firstOfA 1)) (.redeclare (.nil _)))), rfl,
    .apply rfl hrecall, fun o later' h => ?_⟩
  cases h with
  | unbuilt h => cases h
  | apply hrule h =>
    cases hrule
    exact (h.unique hfresh).1

end Engine

end Reshape
