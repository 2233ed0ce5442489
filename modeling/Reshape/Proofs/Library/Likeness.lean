import Reshape.Proofs.Library.Recipes
import Reshape.Proofs.Template.Likeness

/-!
# The library on terms that are alike

All patterns of the library are linear (`LibraryRule.linear_of_build`), and the entries whose rules
map fields are known (`LibraryRule.isMap_of_build`). So a rule of the library treats terms that
are alike the same as soon as its arguments are alike themselves and its guards compare with
settled terms (`LibraryRule.suits_of_build`).
-/

namespace Reshape

/-- Whether the pattern is linear, computed. -/
def Pattern.isLinear (pattern : Pattern) : Bool := pattern.isShape && decide pattern.binders.Nodup

theorem Pattern.linear_of_isLinear {pattern : Pattern} (h : pattern.isLinear = true) :
    pattern.Linear := by
  rw [isLinear, Bool.and_eq_true, decide_eq_true_iff] at h
  exact ⟨h.1, h.2⟩

namespace LibraryRule

variable {entry : LibraryRule} {args : List Term} {rule : Rule}

/-- All patterns of the library are linear. -/
theorem linear_of_build (h : entry.build args = .ok rule) :
    ∀ pattern ∈ rule.patterns, pattern.Linear := by
  have hall : rule.patterns.all Pattern.isLinear = true := by
    refine of_build (P := fun _ rule => rule.patterns.all Pattern.isLinear = true) h ?_
    cases entry <;>
      simp only [recipe, Recipe.always_ofTerm, Recipe.always_ofText, Recipe.always_ofTexts,
        Recipe.always_ofSeq] <;>
      intros <;> rfl
  exact fun pattern hpattern => Pattern.linear_of_isLinear (List.all_eq_true.1 hall pattern hpattern)

/-- Whether the rules of the entry map fields. -/
def mapsFields : LibraryRule → Bool
  | mappingTriple | uppercaseKeys | readonly | partialFields | mutable | required
  | filterByValueType | deepReadonly => true
  | _ => false

theorem isMap_of_build (h : entry.build args = .ok rule) (hmaps : entry.mapsFields = false) :
    ∀ part ∈ rule.parts, part.isMap = false := by
  have hall : rule.parts.all (!·.isMap) = true := by
    refine of_build (P := fun _ rule => rule.parts.all (!·.isMap) = true) h ?_
    cases entry <;> cases hmaps <;>
      simp only [recipe, Recipe.always_ofTerm, Recipe.always_ofText, Recipe.always_ofTexts,
        Recipe.always_ofSeq] <;>
      intros <;> rfl
  exact fun part hpart => by simpa using List.all_eq_true.1 hall part hpart

/-- Whether the rules of the entry, or those that they call, have to shrink what they feed back. -/
def shrinks : LibraryRule → Bool
  | zip | camelCase | dropSubstr | deepPromise | reverse | includes | replaceAll | trimLeft
  | trimRight | trim | reverseStr | subtract | multiply | divide => true
  | _ => false

theorem recursion_of_build (h : entry.build args = .ok rule) (hshrinks : entry.shrinks = false) :
    ∀ called ∈ rule :: rule.callees, called.recursion ≠ .shrinking := by
  have hall : (rule :: rule.callees).all (·.recursion != .shrinking) = true := by
    refine of_build
      (P := fun _ rule => (rule :: rule.callees).all (·.recursion != .shrinking) = true) h ?_
    cases entry <;> cases hshrinks <;>
      simp only [recipe, Recipe.always_ofTerm, Recipe.always_ofText, Recipe.always_ofTexts] <;>
      intros <;> rfl
  exact fun called hcalled => by simpa using List.all_eq_true.1 hall called hcalled

/-- Rules of the library treat terms that are alike the same: they map fields where those stand in
the same order, compare with settled terms, and shrink where they may. -/
theorem suits_of_build {decls : Declarations} {like : Likeness decls}
    (h : entry.build args = .ok rule) (hguards : ∀ guard ∈ rule.guards, like.SettledGuard guard)
    (hterms : ∀ term ∈ rule.terms, like.alike term term)
    (hmaps : like.inOrder ∨ entry.mapsFields = false)
    (hshrinks : like.mayShrink ∨ entry.shrinks = false) : like.Suits rule :=
  Likeness.suits_of_lists
    (fun called hcalled hrecursion => hshrinks.resolve_right fun hnone =>
      recursion_of_build h hnone called hcalled hrecursion)
    (linear_of_build h) hguards hterms (hmaps.imp_right (isMap_of_build h))

end LibraryRule

end Reshape
