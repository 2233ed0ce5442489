import Reshape.Library.Texts
import Reshape.Proofs.Pattern.Ends
import Reshape.Proofs.Reduction.Levels
import Reshape.Proofs.Text.Case

/-!
# Camel case

The text is taken apart at its first underscore. What follows goes into a frame on top, and its result
is capitalized as a whole. So the pieces further on are capitalized more than once, and a piece is
reached through the empty ones before it; neither makes a difference (`Text.capitalize_append_join`).
The result is the first piece and the others capitalized, at the cost of a frame and a step for each
(`Library.camelCase_capitalizes`).
-/

namespace Reshape.Library

variable {decls : Declarations} {text before after : String}

theorem camelCase_step_of_not_occurs (h : Text.aroundFirst? "_" text = none) :
    camelCase.step decls (.text text) = .note .armTried (.done (.done (.text text))) := by
  rw [Rule.step, camelCase, Arm.tryEach, Pattern.captures?_around decls (by decide), h]
  rfl

/-- What follows the underscore is fed back, and its result is capitalized. -/
theorem camelCase_step (decls : Declarations) (h : Text.aroundFirst? "_" text = some (before, after)) :
    ∃ next, (camelCase.step decls (.text text)).AsksFirst (.self (.text after)) next ∧
      ∀ rest, next (.text rest) =
        .done (.done (.text (before ++ CaseOp.capitalize.apply rest))) := by
  rw [Rule.step, camelCase, Arm.tryEach, Pattern.captures?_around decls (by decide), h]
  refine ⟨_, .note (.note .ask), fun rest => ?_⟩
  rw [← String.append_empty (s := CaseOp.capitalize.apply rest)]
  rfl

/-- The pieces of a text between underscores are the levels of a descent. -/
theorem camelCase_descends (decls : Declarations) (text : String) :
    ∃ first others, "_".intercalate (first :: others) = text ∧
      (∀ piece ∈ first :: others, '_' ∉ piece.toList) ∧
      camelCase.Descends decls others.length (.text text)
        (.text (first ++ String.join (others.map CaseOp.capitalize.apply))) := by
  cases h : Text.aroundFirst? "_" text with
  | none =>
    refine ⟨text, [], rfl, ?_, .bottom ?_⟩
    · simpa using Text.not_mem_of_aroundFirst?_eq_none (c := '_') h
    · rw [camelCase_step_of_not_occurs h, Plan.yields_note, Plan.yields_done, List.map_nil,
        String.join_nil, String.append_empty]
      exact ⟨rfl, rfl⟩
  | some parts =>
    obtain ⟨before, after⟩ := parts
    have hless := Text.length_lt_of_aroundFirst? (by decide) h
    obtain ⟨first, others, hafter, hpieces, hdescends⟩ := camelCase_descends decls after
    obtain ⟨next, hasks, hnext⟩ := camelCase_step decls h
    have hsmaller : (Term.text after).size < (Term.text text).size := by
      rw [Term.size, Term.size]
      omega
    refine ⟨before, first :: others, ?_, ?_, .deeper hasks (Rule.admitFeedback_of_size_lt hsmaller)
      hdescends ?_⟩
    · rw [String.intercalate_cons_cons, hafter]
      exact (Text.aroundFirst?_eq_some_iff.1 h).1
    · exact List.forall_mem_cons.2 ⟨Text.not_mem_of_aroundFirst?_eq_some (c := '_') h, hpieces⟩
    · rw [hnext, Text.capitalize_append_join]
termination_by text.length

/-- Every piece of a text between underscores but the first is capitalized, the empty ones at the ends
and between adjacent underscores included. A piece takes a frame and a step. -/
theorem camelCase_capitalizes (decls : Declarations) (mode : Mode) (text : String) :
    ∃ first others, "_".intercalate (first :: others) = text ∧
      (∀ piece ∈ first :: others, '_' ∉ piece.toList) ∧
      camelCase.EndsSharply decls mode (.text text)
        (.text (first ++ String.join (others.map CaseOp.capitalize.apply))) (others.length + 1) := by
  obtain ⟨first, others, htext, hpieces, hdescends⟩ := camelCase_descends decls text
  exact ⟨first, others, htext, hpieces, hdescends.endsSharply rfl mode⟩

end Reshape.Library
