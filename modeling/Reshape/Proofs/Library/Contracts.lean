import Reshape.Proofs.Library.Recipes
import Reshape.Proofs.Rule.Contracts

/-!
# Contracts of the library

Most rules of the library take any term, and promise nothing of what they give. Some have to promise
more, because they use their own results: to reverse a sequence is to splice the reverse of a shorter
one. So `reverse` gives sequences for sequences, and there are rules that give texts for texts.

Every rule of the library that is not about numbers honours these contracts, whatever its arguments
are (`LibraryRule.honours_of_build`).
-/

namespace Reshape

/-- The contracts of the rules of the library, and of the rules that they call. -/
def Library.contracts : Contracts
  | "reverse" => [⟨.any, .any⟩, ⟨.kind .seq, .kind .seq⟩]
  | "zip_pairs" => [⟨.any, .kind .seq⟩]
  | "remove_all_into" => [⟨.tuple [.any, .kind .seq], .any⟩]
  | "camel_case" | "replace_all" | "reverse_str" => [⟨.any, .any⟩, ⟨.kind .text, .kind .text⟩]
  | _ => [⟨.any, .any⟩]

namespace LibraryRule

/-- Whether the rule computes with natural numbers as sequences. -/
def isUnary : LibraryRule → Bool
  | toUnary | buildArray | add | subtract | multiply | divide | greaterThan | fibonacci | strLen => true
  | _ => false

/-- A rule that is built honours its contracts and takes any term, unless it is about numbers. -/
theorem honours_of_build {entry : LibraryRule} {args : List Term} {rule : Rule}
    (h : entry.build args = .ok rule) (hentry : entry.isUnary = false) :
    rule.honours Library.contracts = true ∧ Library.contracts.TakesAny rule.name := by
  refine of_build (P := fun _ rule =>
    rule.honours Library.contracts = true ∧ Library.contracts.TakesAny rule.name) h ?_
  have htakes : ∀ {name : String} {gives : Outline} {rest : List Contract},
      Library.contracts name = ⟨.any, gives⟩ :: rest → Library.contracts.TakesAny name :=
    fun h => ⟨_, h ▸ List.mem_cons_self⟩
  cases entry with
  | toUnary | buildArray | add | subtract | multiply | divide | greaterThan | fibonacci | strLen =>
    cases hentry
  | push | unshift | appendArgument | filterByValueType | includes | removeAll =>
    exact Recipe.always_ofTerm.2 fun _ => ⟨rfl, htakes rfl⟩
  | zip => exact Recipe.always_ofSeq.2 fun _ => ⟨rfl, htakes rfl⟩
  | propType | startsWith | dropSubstr => exact Recipe.always_ofText.2 fun _ => ⟨rfl, htakes rfl⟩
  | replace | replaceAll => exact Recipe.always_ofTexts.2 fun _ _ => ⟨rfl, htakes rfl⟩
  | _ => exact ⟨rfl, htakes rfl⟩

end LibraryRule

end Reshape
