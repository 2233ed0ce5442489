import Mathlib.Data.List.Induction
import Reshape.Library.Sequences
import Reshape.Library.Texts
import Reshape.Proofs.Pattern.Ends
import Reshape.Proofs.Pattern.Hereditary
import Reshape.Proofs.Reduction.Levels
import Reshape.Proofs.Reduction.Termination
import Reshape.Proofs.Term.Size

/-!
# Reversal

A sequence is reversed by putting its last element in front of the others reversed, and a text by
putting its first character behind. Both rules go one frame deeper for each element, and at the bottom
there is nothing left to reverse. So a reversal takes one frame and one step more than there are
elements; where a mode has less room, the limit that is reached first is known
(`Library.reversal_sharp`).
-/

namespace Reshape

namespace Library

/-! ## Sequences -/

theorem reverse_step_nil (decls : Declarations) :
    reverse.step decls (.seq []) = .note .armTried (.done (.done (.seq []))) := rfl

/-- All but the last element are fed back, and their result stands behind it. -/
theorem reverse_step (decls : Declarations) (init : List Term) (last : Term) :
    ∃ rest, (reverse.step decls (.seq (init ++ [last]))).AsksFirst (.self (.seq init)) rest ∧
      ∀ items, rest (.seq items) = .done (.done (.seq (last :: items))) := by
  rw [Rule.step, reverse, Arm.tryEach, Pattern.captures?, Pattern.extend?_tail]
  exact ⟨_, .note (.note .ask), fun items => rfl⟩

theorem reverse_descends (decls : Declarations) (items : List Term) :
    reverse.Descends decls items.length (.seq items) (.seq items.reverse) := by
  induction items using List.reverseRecOn with
  | nil =>
    refine .bottom ?_
    rw [reverse_step_nil, Plan.yields_note, Plan.yields_done]
    exact ⟨rfl, rfl⟩
  | append_singleton init last ih =>
    obtain ⟨rest, hasks, hrest⟩ := reverse_step decls init last
    have hsmaller : (Term.seq init).size < (Term.seq (init ++ [last])).size := by
      have hpos := last.size_pos
      simp only [Term.size, Term.sizeAll, Term.sizeAll_append]
      omega
    rw [List.length_append, List.reverse_append]
    exact .deeper hasks (Rule.admitFeedback_of_size_lt hsmaller) ih (hrest _)

/-! ## Texts -/

theorem reverseStr_step_empty (decls : Declarations) :
    reverseStr.step decls (.text "") = .note .armTried (.done (.done (.text ""))) := rfl

/-- All but the first character are fed back, and their result stands in front of it. -/
theorem reverseStr_step (decls : Declarations) (c : Char) (chars : List Char) :
    ∃ rest, (reverseStr.step decls (.text (.ofList (c :: chars)))).AsksFirst
        (.self (.text (.ofList chars))) rest ∧
      ∀ reversed, rest (.text reversed) = .done (.done (.text (reversed ++ .singleton c))) := by
  rw [Rule.step, reverseStr, Arm.tryEach, Pattern.captures?, Pattern.extend?_firstChar]
  refine ⟨_, .note (.note .ask), fun reversed => ?_⟩
  rw [← String.append_empty (s := .singleton c)]
  rfl

theorem reverseStr_descends (decls : Declarations) (chars : List Char) :
    reverseStr.Descends decls chars.length (.text (.ofList chars))
      (.text (.ofList chars.reverse)) := by
  induction chars with
  | nil =>
    refine .bottom ?_
    rw [String.ofList_nil, reverseStr_step_empty, Plan.yields_note, Plan.yields_done]
    exact ⟨rfl, rfl⟩
  | cons c chars ih =>
    obtain ⟨rest, hasks, hrest⟩ := reverseStr_step decls c chars
    have hsmaller : (Term.text (.ofList chars)).size < (Term.text (.ofList (c :: chars))).size := by
      simp only [Term.size, String.length_ofList, List.length_cons]
      omega
    rw [List.length_cons, List.reverse_cons, String.ofList_append]
    exact .deeper hasks (Rule.admitFeedback_of_size_lt hsmaller) ih (hrest _)

/-! ## Both -/

theorem reverse_endsSharply {decls : Declarations} (mode : Mode) {items : List Term}
    (hitems : decls.Accepts (.seq items)) :
    reverse.EndsSharply decls mode (.seq items) (.seq items.reverse) (items.length + 1) :=
  (reverse_descends decls items).endsSharply ((Rule.vet_of_acyclic hitems).trans rfl) mode

theorem reverseStr_endsSharply (decls : Declarations) (mode : Mode) (chars : List Char) :
    reverseStr.EndsSharply decls mode (.text (.ofList chars)) (.text (.ofList chars.reverse))
      (chars.length + 1) :=
  (reverseStr_descends decls chars).endsSharply rfl mode

/-- Reversals are exact. A mode that allows for one frame and one step more than there are elements has
the elements in the opposite order; otherwise it reaches the depth limit, unless the budget is smaller,
and then the step limit. What was reversed is reversed back to the input. -/
theorem reversal_sharp (decls : Declarations) (mode : Mode) :
    (∀ items, decls.Accepts (.seq items) →
      reverse.EndsSharply decls mode (.seq items) (.seq items.reverse) (items.length + 1) ∧
      ∀ reversed s, reverse.Ends decls (.seq items) (.ofMode mode) (.ok reversed) s →
        ∃ s', reverse.Ends decls reversed (.ofMode mode) (.ok (.seq items)) s') ∧
    (∀ text : String,
      reverseStr.EndsSharply decls mode (.text text) (.text (.ofList text.toList.reverse))
        (text.length + 1) ∧
      ∀ reversed s, reverseStr.Ends decls (.text text) (.ofMode mode) (.ok reversed) s →
        ∃ s', reverseStr.Ends decls reversed (.ofMode mode) (.ok (.text text)) s') := by
  refine ⟨fun items hitems => ?_, fun text => ?_⟩
  · have hreversed : decls.Accepts (.seq items.reverse) :=
      decls.hereditary_accepts.seq.2 fun item hitem =>
        decls.hereditary_accepts.seq.1 hitems item (List.mem_reverse.1 hitem)
    have hsharp := reverse_endsSharply mode hitems
    have hback := reverse_endsSharply mode hreversed
    rw [List.reverse_reverse, List.length_reverse] at hback
    refine ⟨hsharp, fun _ _ hends => ?_⟩
    obtain ⟨rfl, hnext⟩ := hsharp.within.ends_next hback.within (Nat.le_refl _) (Nat.le_refl _) hends
    exact hnext
  · have hsharp := reverseStr_endsSharply decls mode text.toList
    have hback := reverseStr_endsSharply decls mode text.toList.reverse
    rw [List.reverse_reverse, List.length_reverse] at hback
    rw [String.ofList_toList, String.length_toList] at hsharp hback
    refine ⟨hsharp, fun _ _ hends => ?_⟩
    obtain ⟨rfl, hnext⟩ := hsharp.within.ends_next hback.within (Nat.le_refl _) (Nat.le_refl _) hends
    exact hnext

/-- Three elements, one of them a reference, take four frames and four steps. With neither, the frames
are what is missed first. -/
theorem reversal_of_three :
    let decls := Declarations.declare ∅ "A" (.seq [.int 1])
    let input := Term.seq [.ref "A", .int 2, .text "x"]
    (∃ s', reverse.Ends decls input (.ofMode (.custom 4 (some 4)))
      (.ok (.seq [.text "x", .int 2, .ref "A"])) s') ∧
    (∃ s', reverse.Ends decls input (.ofMode (.custom 3 (some 3)))
      (.error ⟨.limitReached .depth 3, ["reverse"]⟩) s') ∧
    ∃ s', reverse.Ends decls input (.ofMode (.custom 4 (some 3)))
      (.error ⟨.limitReached .steps 3, ["reverse"]⟩) s' := by
  intro decls input
  have haccepts : decls.Accepts input := Declarations.needAcyclic_eq_ok_iff.2 (by decide +kernel)
  have hsharp (mode : Mode) := ((reversal_sharp decls mode).1 _ haccepts).1
  exact ⟨(hsharp _).within.ok_iff.2 (by decide), (hsharp _).depth (by decide) (by decide),
    (hsharp (.custom 4 (some 3))).steps 3 rfl (by decide) (by decide)⟩

end Library

end Reshape
