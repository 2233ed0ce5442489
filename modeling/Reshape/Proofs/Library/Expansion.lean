import Reshape.Proofs.Engine.Operations
import Reshape.Proofs.Library.Equality
import Reshape.Proofs.Library.Likeness
import Reshape.Proofs.Library.Lockstep
import Reshape.Proofs.Pattern.Expansion

/-!
# The library and references

A rule of the library does the same on a term as on its expansion, where every declared
reference is replaced by the shape that it stands for: both calls fail alike, or have results
with one expansion (`Engine.apply_sees_through_references`). There are two limits to this.
A rule that has to shrink what it feeds back measures terms as they are written, and a
reference is smaller than the parts of the shape that it stands for, so the one call may be
stopped where the other is not (`Engine.reverse_stops_at_reference`). And terms are compared
down to a greatest depth only.
-/

namespace Reshape

/-- The reduction was stopped because a term that was fed back is not smaller. -/
def Failure.IsNotShrinking (failure : Failure) : Prop := ∃ rule, failure.cause = .notShrinking rule

theorem Failure.IsNotShrinking.leaving {failure : Failure} (rule : String)
    (h : failure.IsNotShrinking) : (failure.leaving rule).IsNotShrinking := by
  rwa [IsNotShrinking, cause_leaving]

/-- Results with one expansion, or one failure. -/
inductive Outcome.SameExpansion (decls : Declarations) : Outcome Term → Outcome Term → Prop where
  | ok {x y : Term} : decls.expand x = decls.expand y → Outcome.SameExpansion decls (.ok x) (.ok y)
  | error (failure : Failure) : Outcome.SameExpansion decls (.error failure) (.error failure)

namespace LibraryRule

variable {decls : Declarations} {entry : LibraryRule} {args : List Term} {rule : Rule}

/-- Whether the rules of the entry compare their arguments with parts of the input. -/
def comparesArgs : LibraryRule → Bool
  | includes | removeAll | filterByValueType => true
  | _ => false

/-- All guards of the library but the one that compares operands are settled: they compare with a
length, or with an argument. -/
theorem settledGuards_of_build {like : Likeness decls} (h : entry.build args = .ok rule)
    (hentry : entry ≠ .greaterThan)
    (hargs : entry.comparesArgs = true → ∀ arg ∈ args, like.settled arg) :
    ∀ guard ∈ rule.guards, like.SettledGuard guard := by
  revert hargs
  refine of_build (P := fun args rule => (entry.comparesArgs = true → ∀ arg ∈ args, like.settled arg) →
    ∀ guard ∈ rule.guards, like.SettledGuard guard) h ?_
  have hnone : ∀ {guards : List Guard}, guards = [] → ∀ guard ∈ guards, like.SettledGuard guard := by
    rintro _ rfl
    exact List.forall_mem_nil _
  cases entry with
  | greaterThan => exact absurd rfl hentry
  | includes | removeAll =>
    refine Recipe.always_ofTerm.2 fun arg hargs => List.forall_mem_singleton.2 (.inr ?_)
    exact hargs rfl arg List.mem_cons_self
  | filterByValueType =>
    refine Recipe.always_ofTerm.2 fun arg hargs => List.forall_mem_singleton.2 (.inl ?_)
    exact hargs rfl arg List.mem_cons_self
  | zip => exact Recipe.always_ofSeq.2 fun items _ => List.forall_mem_singleton.2 (.inl trivial)
  | buildArray => exact Recipe.always_ofTerm.2 fun arg _ => List.forall_mem_singleton.2 (.inl trivial)
  | toUnary | fibonacci => exact fun _ => List.forall_mem_singleton.2 (.inl trivial)
  | add | subtract | multiply | divide =>
    exact fun _ => List.forall_mem_cons.2 ⟨.inl trivial, List.forall_mem_singleton.2 (.inl trivial)⟩
  | push | unshift | appendArgument => exact Recipe.always_ofTerm.2 fun arg _ => hnone rfl
  | propType | startsWith | dropSubstr => exact Recipe.always_ofText.2 fun s _ => hnone rfl
  | replace | replaceAll => exact Recipe.always_ofTexts.2 fun s t _ => hnone rfl
  | _ => exact fun _ => hnone rfl

/-- What the rule compares with parts of the input is shallow: arguments, or an operand. -/
def ComparesShallow (entry : LibraryRule) (decls : Declarations) (args : List Term) (input : Term) :
    Prop :=
  (entry.comparesArgs = true → ∀ arg ∈ args, decls.Shallow arg) ∧
    (entry = .greaterThan → ∀ x y rest, decls.resolve input = .seq (x :: y :: rest) →
      decls.Shallow x ∨ decls.Shallow y)

/-- A rule of the entry has to shrink what it feeds back, and was stopped for not doing so. -/
def Stops (entry : LibraryRule) (o : Outcome Term) : Prop :=
  entry.shrinks = true ∧ ∃ failure, o = .error failure ∧ failure.IsNotShrinking

theorem ComparesShallow.of_sameExpansion {a b : Term} (h : entry.ComparesShallow decls args a)
    (hdecls : decls.WellKeyed) (hacyclic : decls.cycle? = none) (hab : decls.SameExpansion a b) :
    entry.ComparesShallow decls args b := by
  refine ⟨h.1, fun hentry x y rest hb => ?_⟩
  have hshape := Declarations.SameExpansion.resolve hdecls hacyclic hab
  rw [hb] at hshape
  generalize ha : decls.resolve a = resolved at hshape
  cases hshape with
  | seq hitems =>
    cases hitems with
    | cons hx hrest =>
      cases hrest with
      | cons hy _ =>
        rw [Declarations.Shallow, Declarations.Shallow, ← hx.eq, ← hy.eq]
        exact h.2 hentry _ _ _ ha

variable {a b : Term} {s s' : Session} {o : Outcome Term}

/-- Reductions of terms with one expansion end alike, unless one of them is stopped. -/
theorem ends_alike_of_build (hbuild : entry.build args = .ok rule) (hdecls : decls.WellKeyed)
    (hacyclic : decls.cycle? = none) (hargs : ∀ arg ∈ args, arg.WellKeyed)
    (h : decls.SameExpansion a b) (hshallow : entry.ComparesShallow decls args a) (hidle : s.Idle)
    (hmemo : s.memo = none) (hends : rule.Ends decls a s o s') :
    entry.Stops o ∨ ∃ o' s'', rule.Ends decls b s o' s'' ∧ (entry.Stops o' ∨ o.SameExpansion decls o') := by
  have hwell : rule.WellKeyed := wellKeyed_of_build hbuild hargs
  let like := Likeness.ofExpansion hdecls hacyclic (entry.shrinks = true)
  let lock := Library.lockstep like (fun failure => entry.shrinks = true ∧ failure.IsNotShrinking)
    (fun rule h => ⟨h.1, h.2.leaving rule⟩) fun hshrinks _ _ => .inr ⟨hshrinks, _, rfl⟩
  have hadmits : lock.admits rule a b := by
    refine ⟨h, ?_⟩
    by_cases hentry : entry = .greaterThan
    · subst hentry
      exact .inr ⟨of_build (P := fun _ rule => rule = Library.greaterThan) hbuild rfl, hshallow.2 rfl⟩
    · refine .inl (suits_of_build hbuild (settledGuards_of_build hbuild hentry hshallow.1)
        (fun term hterm => .refl (hwell term hterm)) (.inl trivial) ?_)
      exact Bool.eq_false_or_eq_true entry.shrinks
  have hvet : rule.vet decls a = rule.vet decls b := by
    rw [Rule.vet_of_cycle?_eq_none hacyclic, Rule.vet_of_cycle?_eq_none hacyclic]
  rcases hends.twin lock hidle hmemo hadmits hvet with ⟨failure, rfl, haside⟩ | ⟨o', s'', hends', htwin⟩
  · exact .inl ⟨haside.1, failure, rfl, haside.2⟩
  · refine .inr ⟨o', s'', hends', ?_⟩
    cases htwin with
    | ok hresult => exact .inr (.ok hresult.eq)
    | error failure => exact .inr (.error failure)
    | @aside failure _ haside => exact .inl ⟨haside.1, failure, rfl, haside.2⟩

end LibraryRule

namespace Engine

/-- What the call on the one term ends with, the call on the other one ends with up to references,
unless one of them is stopped. -/
def AnswersAlike (engine : Engine) (entry : LibraryRule) (args : List Term) (a b : Term) : Prop :=
  ∀ o engine', engine.Answers (.apply entry args a) o engine' →
    entry.Stops o ∨ ∃ o' engine'', engine.Answers (.apply entry args b) o' engine'' ∧
      (entry.Stops o' ∨ o.SameExpansion engine.decls o')

theorem answersAlike_of_sameExpansion {engine : Engine} (hmemo : engine.memo = none)
    (hdecls : engine.decls.WellKeyed) (hacyclic : engine.decls.cycle? = none) {entry : LibraryRule}
    {args : List Term} (hargs : ∀ arg ∈ args, arg.WellKeyed) {a b : Term}
    (h : engine.decls.SameExpansion a b) (hshallow : entry.ComparesShallow engine.decls args a) :
    engine.AnswersAlike entry args a b := by
  intro o engine' hanswers
  cases hanswers with
  | unbuilt hrule => exact .inr ⟨_, engine, .unbuilt hrule, .inr (.error _)⟩
  | apply hrule hends =>
    obtain ⟨session, hends, -⟩ := hends
    have hidle : (Session.ofMode engine.mode engine.memo).Idle := rfl
    refine (LibraryRule.ends_alike_of_build (build_of_rule hrule) hdecls hacyclic hargs h hshallow
      hidle hmemo hends).imp_right ?_
    rintro ⟨o', session', hends', halike⟩
    exact ⟨o', _, .apply hrule ⟨session', hends', rfl⟩, halike⟩

/-- A rule of the library does the same on a term as on its expansion. Take an engine without a memo
whose declarations have no cycle, and let what the rule compares be shallow. Where the call on
the one term ends, the call on the other one ends with the same failure, or with a result that has the
same expansion, unless one of them is stopped because a fed back term is not smaller; and with a
budget both end. -/
theorem apply_sees_through_references (engine : Engine) (hmemo : engine.memo = none)
    (hdecls : engine.decls.WellKeyed) (hacyclic : engine.decls.cycle? = none) (entry : LibraryRule)
    (args : List Term) (hargs : ∀ arg ∈ args, arg.WellKeyed) (input : Term) (hinput : input.WellKeyed)
    (hshallow : entry.ComparesShallow engine.decls args input) :
    engine.AnswersAlike entry args input (engine.decls.expand input) ∧
      engine.AnswersAlike entry args (engine.decls.expand input) input ∧
      (engine.mode.budget? ≠ none →
        (∃ o engine', engine.Answers (.apply entry args input) o engine') ∧
          ∃ o engine', engine.Answers (.apply entry args (engine.decls.expand input)) o engine') := by
  have hsame : engine.decls.SameExpansion input (engine.decls.expand input) :=
    ⟨hinput, hdecls.expand hinput, (Declarations.expand_expand hacyclic input).symm⟩
  have hshallow' := hshallow.of_sameExpansion hdecls hacyclic hsame
  exact ⟨answersAlike_of_sameExpansion hmemo hdecls hacyclic hargs hsame hshallow,
    answersAlike_of_sameExpansion hmemo hdecls hacyclic hargs hsame.symm hshallow',
    fun hbudget => ⟨exists_answers hbudget entry args input, exists_answers hbudget entry args _⟩⟩

/-- A composite that is declared. -/
def point : Declarations := (∅ : Declarations).declare "Point" (.composite [⟨"x", .int 1, {}⟩])

theorem wellKeyed_point : point.WellKeyed :=
  Declarations.wellKeyed_empty.declare "Point" (by simp [Composite.Distinct, Composite.keys, Term.int])

/-- `deep_readonly` makes the fields behind a reference readonly, as in the expansion. -/
theorem deepReadonly_of_expansion :
    ∃ result engine', Answers { decls := point } (.apply .deepReadonly []
        (point.expand (.composite [⟨"at", .ref "Point", {}⟩]))) (.ok result) engine' ∧
      point.expand result = .composite [⟨"at", .composite [⟨"x", .int 1, { readonly := true }⟩],
        { readonly := true }⟩] := by
  have hinput : (Term.composite [⟨"at", .ref "Point", {}⟩]).WellKeyed := by
    simp [Composite.Distinct, Composite.keys]
  have hreference : Answers { decls := point }
      (.apply .deepReadonly [] (.composite [⟨"at", .ref "Point", {}⟩]))
      (.ok (.composite [⟨"at", .composite [⟨"x", .int 1, { readonly := true }⟩],
        { readonly := true }⟩])) { decls := point } := .apply rfl ⟨_, ⟨3, rfl⟩, rfl⟩
  have hsees := apply_sees_through_references { decls := point } rfl wellKeyed_point
    (by decide +kernel) .deepReadonly [] (List.forall_mem_nil _) _ hinput ⟨by rintro ⟨⟩, by rintro ⟨⟩⟩
  rcases hsees.1 _ _ hreference with ⟨hshrinks, -⟩ | ⟨o', engine', hanswers, ⟨hshrinks, -⟩ | halike⟩
  · cases hshrinks
  · cases hshrinks
  · cases halike with
    | ok hexpand => exact ⟨_, engine', hanswers, hexpand.symm⟩

/-- A sequence that is declared. -/
def triple : Declarations := (∅ : Declarations).declare "Triple" (.seq [.int 7, .int 8, .int 9])

/-- `reverse` has a result on a sequence and fails on a reference to it: what is left of the sequence
without its last element is not smaller than the reference. -/
theorem reverse_stops_at_reference :
    triple.cycle? = none ∧ triple.expand (.ref "Triple") = .seq [.int 7, .int 8, .int 9] ∧
      (∃ engine', Answers { decls := triple } (.apply .reverse [] (.seq [.int 7, .int 8, .int 9]))
        (.ok (.seq [.int 9, .int 8, .int 7])) engine') ∧
      (∃ o engine', Answers { decls := triple } (.apply .reverse [] (.ref "Triple")) o engine') ∧
      ∀ o engine', Answers { decls := triple } (.apply .reverse [] (.ref "Triple")) o engine' →
        o = .error ⟨.notShrinking "reverse", ["reverse"]⟩ := by
  have hstops : Ends { decls := triple } Library.reverse (.ref "Triple")
      (.error ⟨.notShrinking "reverse", ["reverse"]⟩) { decls := triple } := ⟨_, ⟨1, rfl⟩, rfl⟩
  refine ⟨by decide +kernel, rfl, ⟨_, .apply rfl ⟨_, ⟨4, rfl⟩, rfl⟩⟩, ⟨_, _, .apply rfl hstops⟩, ?_⟩
  intro o engine' h
  cases h with
  | unbuilt h => cases h
  | apply hrule h =>
    cases hrule
    exact (h.unique hstops).1

end Engine

end Reshape
