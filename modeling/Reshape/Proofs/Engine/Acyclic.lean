import Reshape.Proofs.Engine.Operations
import Reshape.Proofs.Reduction.Hereditary

/-!
# Acyclic terms stay acyclic

Before a reduction starts, its input is searched for references that lead to a cycle, and a library
rule is only built from arguments that lead to none. Nothing is searched after that. It need not be:
matches take acyclic terms apart, through references too, and templates put them together, so that
all terms that rules are run on, and the results, are acyclic (`Engine.acyclicity_preserved`). A
result of an engine is therefore accepted by the next call.

Only the literals of rules that are given as such are not searched, and have to be acyclic.
-/

namespace Reshape

/-- The property holds of all results in the memo of the engine. -/
def Engine.Remembers (engine : Engine) (P : Term → Prop) : Prop := ∀ memo ∈ engine.memo, memo.All P

/-- A call with a rule whose literals are acyclic. Those of the library rules are searched. -/
def Call.Under (decls : Declarations) : Call → Prop
  | .reduce rule _ => ∀ literal ∈ rule.literals, decls.Accepts literal
  | .apply .. => True

/-- An operation under the declarations: it does not change them, and calls no rule with literals
that lead to a cycle. -/
def Operation.Under (decls : Declarations) : Operation → Prop
  | .startMemo => True
  | .redeclare other => other = decls
  | .run call => call.Under decls

/-- What passes the search is acyclic. -/
theorem Rule.accepts_of_vet {decls : Declarations} {rule : Rule} {input : Term}
    (h : rule.vet decls input = .ok ()) : decls.Accepts input :=
  (bind_eq_ok h).1

/-! ## Rules of the library -/

namespace Declarations

variable {decls : Declarations}

/-- Terms without parts lead nowhere. -/
theorem accepts_of_isBare {term : Term} (h : LibraryRule.isBare term = true) : decls.Accepts term := by
  have hP := decls.hereditary_accepts
  unfold LibraryRule.isBare at h
  split at h
  · exact hP.atom _
  · exact hP.seq.2 (List.forall_mem_nil _)
  · cases h

theorem accepts_of_forM {terms : List Term} (h : terms.forM decls.needAcyclic = .ok ()) :
    ∀ term ∈ terms, decls.Accepts term := by
  induction terms with
  | nil => exact List.forall_mem_nil _
  | cons term rest ih =>
    obtain ⟨hterm, hrest⟩ := bind_eq_ok h
    exact List.forall_mem_cons.2 ⟨hterm, ih hrest⟩

end Declarations

namespace Engine

variable {engine engine' : Engine} {o : Outcome Term} {call : Call}

/-- The literals of a rule that an engine builds are acyclic. -/
theorem accepts_literals_of_rule {entry : LibraryRule} {args : List Term} {rule : Rule}
    (h : engine.rule entry args = .ok rule) : ∀ literal ∈ rule.literals, engine.decls.Accepts literal := by
  obtain ⟨hsearched, hbuild⟩ := bind_eq_ok h
  have hargs := Declarations.accepts_of_forM hsearched
  intro literal hliteral
  have hterm := rule.literals_subset_terms hliteral
  rcases LibraryRule.mem_terms_of_build hbuild literal hterm with harg | hbare
  · exact hargs literal harg
  · exact Declarations.accepts_of_isBare hbare

/-! ## Calls -/

theorem Ends.accepts {rule : Rule} {input : Term} (h : engine.Ends rule input o engine')
    (hliterals : ∀ literal ∈ rule.literals, engine.decls.Accepts literal)
    (hmemo : engine.Remembers engine.decls.Accepts) :
    (∀ result, o = .ok result → engine.decls.Accepts result) ∧
      engine'.Remembers engine.decls.Accepts := by
  obtain ⟨session, hends, rfl⟩ := h
  exact hends.all engine.decls.hereditary_accepts rfl hliterals Rule.accepts_of_vet hmemo

/-- A call has an acyclic result, and leaves only acyclic ones in the memo. -/
theorem Answers.accepts (h : engine.Answers call o engine') (hcall : call.Under engine.decls)
    (hmemo : engine.Remembers engine.decls.Accepts) :
    (∀ result, o = .ok result → engine.decls.Accepts result) ∧
      engine'.Remembers engine.decls.Accepts := by
  cases h with
  | reduce h => exact h.accepts hcall hmemo
  | unbuilt h => exact ⟨nofun, hmemo⟩
  | apply hrule h => exact h.accepts (accepts_literals_of_rule hrule) hmemo

/-- Operations leave only acyclic results in the memo. -/
theorem Operates.accepts {operations : List Operation} (h : engine.Operates operations engine')
    (hoperations : ∀ operation ∈ operations, operation.Under engine.decls)
    (hmemo : engine.Remembers engine.decls.Accepts) :
    engine'.decls = engine.decls ∧ engine'.Remembers engine.decls.Accepts := by
  induction h with
  | nil engine => exact ⟨rfl, hmemo⟩
  | @startMemo engine _ _ _ ih =>
    have hempty : engine.startMemo.Remembers engine.decls.Accepts := by
      rintro _ ⟨⟩
      exact Memo.all_empty _
    exact ih (List.forall_mem_cons.1 hoperations).2 hempty
  | redeclare _ ih =>
    obtain ⟨hfirst, hrest⟩ := List.forall_mem_cons.1 hoperations
    obtain rfl : _ = _ := hfirst
    exact ih hrest hmemo
  | run hanswers _ ih =>
    obtain ⟨hfirst, hrest⟩ := List.forall_mem_cons.1 hoperations
    have hnext := (hanswers.accepts hfirst hmemo).2
    obtain ⟨memo, rfl⟩ := hanswers.kept
    exact ih hrest hnext

/-- To be acyclic is kept by reductions. Take any declarations, and a rule whose literals, and those
of the rules that it calls, are acyclic. A reduction with the rule, whose memo holds acyclic results
if there is one, comes to run rules on acyclic terms only, and its result is acyclic. And if an
engine that remembers acyclic results is operated under its declarations, the result of any call is
acyclic, so that the next call does not reject it. -/
theorem acyclicity_preserved (decls : Declarations) :
    (∀ (rule : Rule) (input : Term) (s : Session), s.Idle →
      (∀ literal ∈ rule.literals, decls.Accepts literal) → s.Remembers decls.Accepts →
      (∀ called term, rule.Feeds decls input s called term → decls.Accepts term) ∧
      ∀ o s', rule.Ends decls input s o s' →
        (∀ result, o = .ok result → decls.Accepts result) ∧ s'.Remembers decls.Accepts) ∧
    (∀ (engine : Engine), engine.decls = decls → engine.Remembers decls.Accepts →
      ∀ operations, (∀ operation ∈ operations, operation.Under decls) →
      ∀ present, engine.Operates operations present → ∀ call, call.Under decls →
      ∀ result later, present.Answers call (.ok result) later →
        later.decls = decls ∧ later.decls.Accepts result) := by
  have hP := decls.hereditary_accepts
  constructor
  · intro rule input s hidle hliterals hs
    exact ⟨fun called term h => h.all hP hliterals Rule.accepts_of_vet hs,
      fun o s' h => h.all hP hidle hliterals Rule.accepts_of_vet hs⟩
  · rintro engine rfl hmemo operations hoperations present hoperates call hcall result later hanswers
    obtain ⟨hdecls, hpresent⟩ := hoperates.accepts hoperations hmemo
    rw [← hdecls] at hcall hpresent ⊢
    have hresult := (hanswers.accepts hcall hpresent).1 result rfl
    obtain ⟨memo, rfl⟩ := hanswers.kept
    exact ⟨rfl, hresult⟩

/-- `A` stands for the sequence of `B`, and `B` for that of a number. -/
def nested : Declarations :=
  ((∅ : Declarations).declare "A" (.seq [.ref "B"])).declare "B" (.seq [.int 1])

/-- Unwrapping `[A]` comes to `B`, which is found behind `A`. It is also the first element of `A`,
and an engine that has had it as a result takes it as an input. -/
theorem nested_references_accepted :
    (unwrapping.Feeds nested (.seq [.ref "A"]) (.ofMode .host) unwrapping (.ref "B") ∧
      nested.Accepts (.ref "B")) ∧
    ∃ later present, Answers { decls := nested } (.apply .first [] (.ref "A")) (.ok (.ref "B")) later ∧
      later.decls.Accepts (.ref "B") ∧
      later.Answers (.apply .first [] (.ref "B")) (.ok (.int 1)) present := by
  obtain ⟨hreductions, hengines⟩ := acyclicity_preserved nested
  have hfeeds : unwrapping.Feeds nested (.seq [.ref "A"]) (.ofMode .host) unwrapping (.ref "B") :=
    ⟨2, _, by decide +kernel, rfl, rfl, .onwards rfl rfl rfl rfl (.again rfl rfl)⟩
  have hliterals : ∀ literal ∈ unwrapping.literals, nested.Accepts literal := List.forall_mem_nil _
  have hnone : ∀ memo ∈ (none : Option Memo), memo.All nested.Accepts := by rintro _ ⟨⟩
  have hfirst : Answers { decls := nested } (.apply .first [] (.ref "A")) (.ok (.ref "B"))
      { decls := nested } := .apply rfl ⟨_, ⟨1, rfl⟩, rfl⟩
  have hsecond : Answers { decls := nested } (.apply .first [] (.ref "B")) (.ok (.int 1))
      { decls := nested } := .apply rfl ⟨_, ⟨1, rfl⟩, rfl⟩
  refine ⟨⟨hfeeds, ?_⟩, _, _, hfirst, ?_, hsecond⟩
  · exact (hreductions unwrapping _ (.ofMode .host) rfl hliterals hnone).1 _ _ hfeeds
  · have hengine := hengines { decls := nested } rfl hnone [] (List.forall_mem_nil _) _ (.nil _)
    exact (hengine (.apply .first [] (.ref "A")) trivial _ _ hfirst).2

end Engine

end Reshape
