import Reshape.Library.Catalog
import Reshape.Proofs.Rule.Normal

/-!
# What the library builds

What holds of every rule that a recipe can make holds of every rule that is built from it
(`LibraryRule.of_build`), and is said once for each kind of recipe. So it is seen that
one rule only, `uppercase_keys`, builds keys while it maps fields
(`LibraryRule.keyless_of_build`), and that all terms inside a rule are arguments, atoms or
empty (`LibraryRule.mem_terms_of_build`).
-/

namespace Reshape

namespace Recipe

/-- Whatever the recipe makes of its arguments is as the condition says. -/
def Always (P : List Term → Rule → Prop) : Recipe → Prop
  | plain rule => P [] rule
  | one _ make => ∀ a rule, make a = .ok rule → P [a] rule
  | two _ _ make => ∀ a b rule, make a b = .ok rule → P [a, b] rule

variable {P : List Term → Rule → Prop}

theorem always_ofTerm {parameter : String} {make : Term → Rule} :
    (ofTerm parameter make).Always P ↔ ∀ a, P [a] (make a) := by
  constructor
  · exact fun h a => h a (make a) rfl
  · rintro h a _ ⟨⟩
    exact h a

theorem always_ofText {parameter : String} {make : String → Rule} :
    (ofText parameter make).Always P ↔ ∀ s, P [.text s] (make s) := by
  constructor
  · exact fun h s => h (.text s) (make s) rfl
  · intro h a rule hmake
    cases a <;> cases hmake
    exact h _

theorem always_ofTexts {first second : String} {make : String → String → Rule} :
    (ofTexts first second make).Always P ↔ ∀ s t, P [.text s, .text t] (make s t) := by
  constructor
  · exact fun h s t => h (.text s) (.text t) (make s t) rfl
  · intro h a b rule hmake
    cases a <;> cases b <;> cases hmake
    exact h _ _

theorem always_ofSeq {parameter : String} {make : List Term → Rule} :
    (ofSeq parameter make).Always P ↔ ∀ items, P [.seq items] (make items) := by
  constructor
  · exact fun h items => h (.seq items) (make items) rfl
  · intro h a rule hmake
    cases a <;> cases hmake
    exact h _

theorem Always.of_make? {recipe : Recipe} (h : recipe.Always P) {args : List Term} {rule : Rule}
    (hmake : recipe.make? args = some (.ok rule)) : P args rule := by
  unfold make? at hmake
  split at hmake
  · cases hmake
    exact h
  · exact h _ _ (Option.some.inj hmake)
  · exact h _ _ _ (Option.some.inj hmake)
  · cases hmake

end Recipe

namespace LibraryRule

variable {entry : LibraryRule} {args : List Term} {rule : Rule}

/-- What is built is made from the recipe, and valid. -/
theorem build_eq_ok (h : entry.build args = .ok rule) :
    entry.recipe.make? args = some (.ok rule) ∧ rule.validate = .ok () := by
  unfold build at h
  split at h
  · cases h
  · rename_i made hmade
    cases made with
    | error failure => cases h
    | ok built =>
      obtain ⟨hvalid, hbuilt⟩ := bind_eq_ok h
      cases hbuilt
      exact ⟨hmade, hvalid⟩

/-- What holds of all that a recipe makes holds of the rules that are built from it. -/
theorem of_build {P : List Term → Rule → Prop} (h : entry.build args = .ok rule)
    (hmakes : entry.recipe.Always P) : P args rule :=
  hmakes.of_make? (build_eq_ok h).1

/-- One rule only builds keys while it maps fields. -/
theorem keyless_of_build (h : entry.build args = .ok rule) (hkeys : entry ≠ uppercaseKeys) :
    rule.Keyless := by
  have hkeyless : rule.parts.all (!·.isKeyed) = true := by
    refine of_build (P := fun _ rule => rule.parts.all (!·.isKeyed) = true) h ?_
    cases entry with
    | uppercaseKeys => exact absurd rfl hkeys
    | _ =>
      simp only [recipe, Recipe.always_ofTerm, Recipe.always_ofText, Recipe.always_ofTexts,
        Recipe.always_ofSeq]
      intros
      rfl
  intro part hpart
  simpa using List.all_eq_true.1 hkeyless part hpart

/-- An atom or the empty sequence. -/
def isBare : Term → Bool
  | .atom _ | .seq [] => true
  | _ => false

/-- Nothing else than arguments, atoms and the empty sequence stands in a rule. -/
theorem mem_terms_of_build (h : entry.build args = .ok rule) :
    ∀ term ∈ rule.terms, term ∈ args ∨ isBare term = true := by
  refine of_build (P := fun args rule =>
    ∀ term ∈ rule.terms, term ∈ args ∨ isBare term = true) h ?_
  have harg : ∀ arg : Term, arg ∈ [arg] ∨ isBare arg = true := fun _ => .inl List.mem_cons_self
  have hbare : ∀ {rule : Rule} {args : List Term}, rule.terms.all isBare = true →
      ∀ term ∈ rule.terms, term ∈ args ∨ isBare term = true :=
    fun h term hterm => .inr (List.all_eq_true.1 h term hterm)
  cases entry with
  | push | unshift | appendArgument | filterByValueType =>
    exact Recipe.always_ofTerm.2 fun arg => List.forall_mem_singleton.2 (harg arg)
  | zip =>
    refine Recipe.always_ofSeq.2 fun items => ?_
    show ∀ term ∈ [Term.count items.length, .seq [], .seq items, .seq []], _
    simp [isBare, Term.count, Term.int]
  | includes =>
    refine Recipe.always_ofTerm.2 fun target => ?_
    show ∀ term ∈ [Term.bool false, target, .bool true], _
    simp [isBare, Term.bool]
  | removeAll =>
    refine Recipe.always_ofTerm.2 fun item => ?_
    show ∀ term ∈ [item, Term.seq []], _
    simp [isBare]
  | buildArray =>
    refine Recipe.always_ofTerm.2 fun element => ?_
    show ∀ term ∈ [Term.seq [], element], _
    simp [isBare]
  | propType | startsWith | dropSubstr =>
    exact Recipe.always_ofText.2 fun _ => hbare rfl
  | replace | replaceAll => exact Recipe.always_ofTexts.2 fun _ _ => hbare rfl
  | _ => exact hbare rfl

theorem wellKeyed_of_isBare {term : Term} (h : isBare term = true) : term.WellKeyed := by
  unfold isBare at h
  split at h
  · trivial
  · simp
  · cases h

/-- The terms in a rule have distinct keys if those in its arguments have. -/
theorem wellKeyed_of_build (h : entry.build args = .ok rule) (hargs : ∀ arg ∈ args, arg.WellKeyed) :
    rule.WellKeyed := fun term hterm =>
  (mem_terms_of_build h term hterm).elim (hargs term) wellKeyed_of_isBare

end LibraryRule

end Reshape
