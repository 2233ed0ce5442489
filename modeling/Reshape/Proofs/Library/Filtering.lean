import Mathlib.Data.List.TakeWhile
import Reshape.Library.Sequences
import Reshape.Proofs.Pattern.Ends
import Reshape.Proofs.Pattern.Hereditary
import Reshape.Proofs.Reduction.Conclusion
import Reshape.Proofs.Reduction.Termination

/-!
# Searching and filtering

Elements are told apart by whether they and the target fit each other. The search goes over the
elements up to the first that does (`Library.includes_yields`). The removal goes over all of them, and
moves those that do not behind the ones kept so far (`Library.removeAllInto_yields`); so what it keeps
is a filtering, and nothing is found in it (`Library.removeAll_filters`).
-/

namespace Reshape.Library

/-! ## Searching -/

theorem includes_step_nil (decls : Declarations) (target : Term) :
    (includes target).step decls (.seq []) =
      .note .armTried (.note .armTried (.done (.done (.bool false)))) := rfl

theorem includes_step (decls : Declarations) (target item : Term) (items : List Term) :
    (includes target).step decls (.seq (item :: items)) =
      .note .armTried (if decls.equivalent item target then
        .note .armTaken (.done (.done (.bool true)))
      else .note .armTried (.note .armTaken (.done (.again (.seq items))))) := by
  rw [Rule.step, includes, Arm.tryEach, Pattern.captures?, Pattern.extend?_head, Arm.tryEach,
    Pattern.captures?, Pattern.extend?_head]
  rfl

/-- The search takes a step for each element up to the first that is found, and one more if there is
none. -/
theorem includes_yields (decls : Declarations) (target : Term) (items : List Term) :
    (includes target).Yields decls (.seq items) (.bool (items.any (decls.equivalent · target)))
      ⟨(items.takeWhile (!decls.equivalent · target)).length + 1, 0⟩ := by
  induction items with
  | nil =>
    refine .of_done 0 ?_
    rw [includes_step_nil, Plan.yields_note, Plan.yields_note, Plan.yields_done]
    exact ⟨rfl, rfl⟩
  | cons item items ih =>
    have hstep := includes_step decls target item items
    cases hfound : decls.equivalent item target with
    | true =>
      rw [List.any_cons, hfound, Bool.true_or, List.takeWhile_cons_of_neg (by simp [hfound])]
      refine .of_done 0 ?_
      rw [hstep, if_pos hfound, Plan.yields_note, Plan.yields_note, Plan.yields_done]
      exact ⟨rfl, rfl⟩
    | false =>
      have hnext : ((includes target).step decls (.seq (item :: items))).Yields decls
          (includes target) (.seq (item :: items)) (.again (.seq items)) 0 := by
        rw [hstep, hfound, if_neg Bool.false_ne_true, Plan.yields_note, Plan.yields_note,
          Plan.yields_note, Plan.yields_done]
        exact ⟨rfl, rfl⟩
      have hsmaller : (Term.seq items).size < (Term.seq (item :: items)).size := by
        have hpos := item.size_pos
        simp only [Term.size, Term.sizeAll]
        omega
      rw [List.any_cons, hfound, Bool.false_or, List.takeWhile_cons_of_pos (by simp [hfound]),
        List.length_cons]
      exact .of_again hnext (Rule.admitFeedback_of_size_lt hsmaller) ih

/-! ## Removing -/

theorem removeAllInto_step_nil (decls : Declarations) (target : Term) (kept : List Term) :
    (removeAllInto target).step decls (.seq [.seq [], .seq kept]) =
      .note .armTried (.note .armTried (.note .armTried (.note .armTaken
        (.done (.done (.seq kept)))))) := rfl

theorem removeAllInto_step (decls : Declarations) (target item : Term) (items kept : List Term) :
    (removeAllInto target).step decls (.seq [.seq (item :: items), .seq kept]) =
      .note .armTried (if decls.equivalent item target then
        .note .armTaken (.done (.again (.seq [.seq items, .seq kept])))
      else .note .armTried (.note .armTaken
        (.done (.again (.seq [.seq items, .seq (kept ++ [item])]))))) := by
  rw [Rule.step, removeAllInto, Arm.tryEach, Pattern.captures?, Pattern.extend?_pair,
    Pattern.extend?_head, Arm.tryEach, Pattern.captures?, Pattern.extend?_pair, Pattern.extend?_head]
  rfl

/-- What the next element leaves of itself stands behind what is kept. -/
theorem removeAllInto_next (decls : Declarations) (target item : Term) (items kept : List Term) :
    ((removeAllInto target).step decls (.seq [.seq (item :: items), .seq kept])).Yields decls
      (removeAllInto target) (.seq [.seq (item :: items), .seq kept])
      (.again (.seq [.seq items, .seq (kept ++ [item].filter (!decls.equivalent · target))])) 0 := by
  rw [removeAllInto_step]
  cases hsame : decls.equivalent item target with
  | true =>
    rw [if_pos rfl, List.filter_singleton, hsame, Plan.yields_note, Plan.yields_note, Plan.yields_done]
    exact ⟨by simp, rfl⟩
  | false =>
    rw [if_neg Bool.false_ne_true, List.filter_singleton, hsame, Plan.yields_note, Plan.yields_note,
      Plan.yields_note, Plan.yields_done]
    exact ⟨rfl, rfl⟩

theorem removeAllInto_yields (decls : Declarations) (target : Term) (items kept : List Term) :
    (removeAllInto target).Yields decls (.seq [.seq items, .seq kept])
      (.seq (kept ++ items.filter (!decls.equivalent · target))) ⟨items.length + 1, 0⟩ := by
  -- What is kept grows from step to step, so it is arbitrary in the induction.
  induction items generalizing kept with
  | nil =>
    refine .of_done 0 ?_
    rw [removeAllInto_step_nil]
    simp only [Plan.yields_note, Plan.yields_done, List.filter_nil, List.append_nil, and_self]
  | cons item items ih =>
    have hrest := ih (kept ++ [item].filter (!decls.equivalent · target))
    rw [List.append_assoc, ← List.filter_append, List.singleton_append] at hrest
    exact .of_again (removeAllInto_next decls target item items kept) rfl hrest

/-- The removal runs in a frame on top, with nothing kept at first. -/
theorem removeAll_yields (decls : Declarations) (target : Term) (items : List Term) :
    (removeAll target).Yields decls (.seq items) (.seq (items.filter (!decls.equivalent · target)))
      ⟨items.length + 2, 1⟩ := by
  have hstep : (removeAll target).step decls (.seq items) = .note .armTried (.note .armTaken
      (.ask (.call (removeAllInto target) (.seq [.seq items, .seq []])) fun kept =>
        .done (.done kept))) := rfl
  refine .of_done ⟨items.length + 1, 1⟩ ?_
  rw [hstep, Plan.yields_note, Plan.yields_note, Plan.yields_ask]
  refine ⟨_, _, 0, Request.yields_call.2 ⟨_, removeAllInto_yields decls target items [], rfl⟩, ?_, ?_⟩
  · exact Plan.yields_done.2 ⟨rfl, rfl⟩
  · exact (add_zero _).symm

/-- An element is found if and only if one of them and the target fit each other. The elements that do
not are kept, in their order; they and those that do are as many as there were. So nothing is found
among what is kept. -/
theorem removeAll_filters (decls : Declarations) (mode : Mode) (target : Term) (items : List Term)
    (hitems : decls.Accepts (.seq items)) :
    let same item := decls.equivalent item target
    let kept := items.filter (!same ·)
    (includes target).EndsWithin decls mode (.seq items) (.bool (items.any same))
      ⟨(items.takeWhile (!same ·)).length + 1, 1⟩ ∧
    (removeAll target).EndsWithin decls mode (.seq items) (.seq kept) ⟨items.length + 2, 2⟩ ∧
    kept.length + items.countP same = items.length ∧
    (includes target).EndsWithin decls mode (.seq kept) (.bool false) ⟨kept.length + 1, 1⟩ := by
  intro same kept
  have hkept : ∀ item ∈ kept, (!same item) = true := fun item hitem => (List.mem_filter.1 hitem).2
  have hkeptAccepts : decls.Accepts (.seq kept) := decls.hereditary_accepts.seq.2 fun item hitem =>
    decls.hereditary_accepts.seq.1 hitems item (List.mem_filter.1 hitem).1
  have hnone := includes_yields decls target kept
  have hany : kept.any same = false :=
    List.any_eq_false.2 fun item hitem => by simpa using hkept item hitem
  rw [hany, List.takeWhile_eq_self_iff.2 hkept] at hnone
  refine ⟨(includes_yields decls target items).endsWithin ((Rule.vet_of_acyclic hitems).trans rfl) mode,
    (removeAll_yields decls target items).endsWithin ((Rule.vet_of_acyclic hitems).trans rfl) mode, ?_,
    hnone.endsWithin ((Rule.vet_of_acyclic hkeptAccepts).trans rfl) mode⟩
  rw [Nat.add_comm, List.countP_eq_length_filter]
  exact (List.length_eq_length_filter_add same).symm

/-- A name for the target is found and dropped, and what the target fits but not the other way round
is neither. -/
theorem removeAll_references :
    let decls := Declarations.declare ∅ "One" (.int 1)
    let input := Term.seq [.prim .number, .ref "One", .text "1", .int 1]
    (∃ s', (includes (.int 1)).Ends decls input (.ofMode (.custom 1 (some 2))) (.ok (.bool true)) s') ∧
    ∃ s', (removeAll (.int 1)).Ends decls input (.ofMode (.custom 2 (some 6)))
      (.ok (.seq [.prim .number, .text "1"])) s' := by
  intro decls input
  have haccepts : decls.Accepts input := Declarations.needAcyclic_eq_ok_iff.2 (by decide +kernel)
  have hany : [Term.prim .number, .ref "One", .text "1", .int 1].any
      (decls.equivalent · (.int 1)) = true := by decide +kernel
  have hfiltered : [Term.prim .number, .ref "One", .text "1", .int 1].filter
      (!decls.equivalent · (.int 1)) = [.prim .number, .text "1"] := by rfl
  obtain ⟨hincludes, -⟩ := removeAll_filters decls (.custom 1 (some 2)) (.int 1) _ haccepts
  obtain ⟨-, hremoves, -⟩ := removeAll_filters decls (.custom 2 (some 6)) (.int 1) _ haccepts
  rw [hany] at hincludes
  rw [hfiltered] at hremoves
  exact ⟨hincludes.ok_iff.2 (by decide +kernel), hremoves.ok_iff.2 (by decide)⟩

end Reshape.Library
