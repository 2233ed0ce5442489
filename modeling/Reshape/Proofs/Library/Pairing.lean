import Reshape.Library.Sequences
import Reshape.Proofs.Declarations.Counts
import Reshape.Proofs.Engine.Operations
import Reshape.Proofs.Pattern.Ends
import Reshape.Proofs.Pattern.Hereditary
import Reshape.Proofs.Reduction.Conclusion
import Reshape.Proofs.Reduction.Levels
import Reshape.Proofs.Reduction.Termination

/-!
# Pairing

Two sequences are paired by taking both apart at once, in a frame for each pair
(`Library.zipPairs_descends`), until one of them is over. That both are over at once is seen to before,
by their counts (`Library.zip_step`); those are equal only for sequences of one length, as long as the
lengths are below the largest integer (`Declarations.equivalent_count`).
-/

namespace Reshape

namespace Library

variable (decls : Declarations)

/-! ## Pairs -/

/-- The elements of two sequences, two by two. -/
def pairs (xs ys : List Term) : List Term := List.zipWith (fun x y => .seq [x, y]) xs ys

theorem zipPairs_step_nil_left (ys : List Term) :
    zipPairs.step decls (.seq [.seq [], .seq ys]) = .note .armTried (.done (.done (.seq []))) := by
  rw [Rule.step, zipPairs, Arm.tryEach, Pattern.captures?, Pattern.extend?_pair,
    Pattern.extend?_head_nil]
  rfl

theorem zipPairs_step_nil_right (xs : List Term) :
    zipPairs.step decls (.seq [.seq xs, .seq []]) = .note .armTried (.done (.done (.seq []))) := by
  rw [Rule.step, zipPairs, Arm.tryEach, Pattern.captures?, Pattern.extend?_pair]
  cases xs with
  | nil => rfl
  | cons x xs =>
    rw [Pattern.extend?_head]
    rfl

/-- The first elements are paired in front of what the rest is fed back for. -/
theorem zipPairs_step (x y : Term) (xs ys : List Term) :
    ∃ rest, (zipPairs.step decls (.seq [.seq (x :: xs), .seq (y :: ys)])).AsksFirst
        (.self (.seq [.seq xs, .seq ys])) rest ∧
      ∀ items, rest (.seq items) = .done (.done (.seq (.seq [x, y] :: items))) := by
  -- What the first pattern binds is passed on to the second, whose match is a function here.
  have hsecond (first rest : Pattern) := funext (Pattern.extend?_head decls · first rest y ys)
  rw [Rule.step, zipPairs, Arm.tryEach, Pattern.captures?, Pattern.extend?_pair, Pattern.extend?_head,
    hsecond]
  exact ⟨_, .note (.note .ask), fun items => rfl⟩

theorem zipPairs_descends (xs ys : List Term) :
    zipPairs.Descends decls (min xs.length ys.length) (.seq [.seq xs, .seq ys])
      (.seq (pairs xs ys)) := by
  induction xs generalizing ys with
  | nil =>
    rw [List.length_nil, Nat.zero_min]
    refine .bottom ?_
    rw [zipPairs_step_nil_left, Plan.yields_note, Plan.yields_done]
    exact ⟨rfl, rfl⟩
  | cons x xs ih =>
    cases ys with
    | nil =>
      rw [List.length_nil, Nat.min_zero]
      refine .bottom ?_
      rw [zipPairs_step_nil_right, Plan.yields_note, Plan.yields_done]
      exact ⟨rfl, rfl⟩
    | cons y ys =>
      obtain ⟨rest, hasks, hrest⟩ := zipPairs_step decls x y xs ys
      have hsmaller : (Term.seq [.seq xs, .seq ys]).size <
          (Term.seq [.seq (x :: xs), .seq (y :: ys)]).size := by
        have hx := x.size_pos
        have hy := y.size_pos
        simp only [Term.size, Term.sizeAll]
        omega
      rw [List.length_cons, List.length_cons, Nat.succ_min_succ]
      exact .deeper hasks (Rule.admitFeedback_of_size_lt hsmaller) (ih ys) (hrest _)

/-! ## Sequences of one length or of two -/

/-- The sequences are compared by their counts. -/
theorem zip_step (xs ys : List Term) :
    (zip ys).step decls (.seq xs) =
      .note .armTried (if decls.equivalent (.count xs.length) (.count ys.length) then
        .note .armTaken (.ask (.call zipPairs (.seq [.seq xs, .seq ys])) fun zipped =>
          .done (.done zipped))
      else .note .armTried (.note .armTaken (.done (.done (.seq []))))) := rfl

variable {decls} {xs ys : List Term}

theorem zip_yields_pairs (h : decls.equivalent (.count xs.length) (.count ys.length) = true) :
    (zip ys).Yields decls (.seq xs) (.seq (pairs xs ys))
      ⟨min xs.length ys.length + 2, min xs.length ys.length + 1⟩ := by
  have hpairs : (Request.call zipPairs (.seq [.seq xs, .seq ys])).Yields decls (zip ys) (.seq xs)
      (.seq (pairs xs ys)) ⟨min xs.length ys.length + 1, min xs.length ys.length + 1⟩ :=
    Request.yields_call.2 ⟨_, (zipPairs_descends decls xs ys).yields, rfl⟩
  refine .of_done ⟨min xs.length ys.length + 1, min xs.length ys.length + 1⟩ ?_
  rw [zip_step, if_pos h, Plan.yields_note, Plan.yields_note, Plan.yields_ask]
  exact ⟨_, _, 0, hpairs, Plan.yields_done.2 ⟨rfl, rfl⟩, (add_zero _).symm⟩

theorem zip_yields_nil (h : decls.equivalent (.count xs.length) (.count ys.length) = false) :
    (zip ys).Yields decls (.seq xs) (.seq []) ⟨1, 0⟩ := by
  refine .of_done 0 ?_
  rw [zip_step, h, if_neg Bool.false_ne_true, Plan.yields_note, Plan.yields_note, Plan.yields_note,
    Plan.yields_done]
  exact ⟨rfl, rfl⟩

/-- Sequences of one length are paired, which takes two frames and two steps more than there are pairs.
Sequences of different lengths give the empty sequence, in a single frame and a single step; only if
both had more elements than any memory has room for, as many as the largest integer, could they be
taken for ones of the same length. There is no other failure than to reach a limit. -/
theorem zip_answers (engine : Engine) (hmemo : engine.memo = none) (xs ys : List Term)
    (hxs : engine.decls.Accepts (.seq xs)) (hys : engine.decls.Accepts (.seq ys)) :
    ∃ zipped levels,
      engine.AnswersWithin (.apply .zip [.seq ys] (.seq xs)) (.seq zipped) ⟨levels, levels⟩ ∧
      (xs.length = ys.length → zipped = pairs xs ys ∧ levels = xs.length + 2) ∧
      (xs.length ≠ ys.length → min xs.length ys.length < 2 ^ 63 - 1 → zipped = [] ∧ levels = 1) := by
  have hvet : (zip ys).vet engine.decls (.seq xs) = .ok () := (Rule.vet_of_acyclic hxs).trans rfl
  have hrule : engine.rule .zip [.seq ys] = .ok (zip ys) := by
    have hargs : engine.decls.needAcyclic (.seq ys) = .ok () := hys
    show ((engine.decls.needAcyclic (.seq ys) >>= fun _ => pure ()) >>= fun _ => _) = _
    rw [hargs]
    rfl
  cases hcounts : engine.decls.equivalent (.count xs.length) (.count ys.length) with
  | true =>
    have hends := (zip_yields_pairs hcounts).endsWithin hvet engine.mode
    refine ⟨pairs xs ys, min xs.length ys.length + 2,
      Engine.answersWithin_of_endsWithin hmemo hrule hends, fun hsame => ?_, fun hother hless => ?_⟩
    · rw [hsame, Nat.min_self]
      exact ⟨rfl, rfl⟩
    · rw [Declarations.equivalent_count, decide_eq_true_eq] at hcounts
      omega
  | false =>
    have hends := (zip_yields_nil hcounts).endsWithin hvet engine.mode
    refine ⟨[], 1, Engine.answersWithin_of_endsWithin hmemo hrule hends, fun hsame => ?_, fun _ _ =>
      ⟨rfl, rfl⟩⟩
    rw [hsame, Declarations.equivalent_count, decide_eq_false_iff_not] at hcounts
    exact absurd rfl hcounts

/-- Two pairs take four frames and four steps, and where an element is over there are none. -/
theorem zip_answers_two :
    let engine : Engine :=
      { decls := (∅ : Declarations).declare "A" (.seq [.int 1]), mode := .custom 4 (some 4) }
    (∃ engine', engine.Answers (.apply .zip [.seq [.text "x", .seq []]] (.seq [.ref "A", .int 2]))
      (.ok (.seq [.seq [.ref "A", .text "x"], .seq [.int 2, .seq []]])) engine') ∧
    ∃ engine', engine.Answers (.apply .zip [.seq [.text "x"]] (.seq [.ref "A", .int 2]))
      (.ok (.seq [])) engine' := by
  intro engine
  have haccepts {term : Term} (h : engine.decls.cycleIn? term = none) : engine.decls.Accepts term :=
    Declarations.needAcyclic_eq_ok_iff.2 h
  constructor
  · obtain ⟨zipped, levels, ⟨o, engine', hanswers, -, hiff⟩, hsame, -⟩ :=
      zip_answers engine rfl [.ref "A", .int 2] [.text "x", .seq []] (haccepts (by decide +kernel))
        (haccepts (by decide +kernel))
    obtain ⟨rfl, rfl⟩ := hsame rfl
    rw [hiff.2 (by decide)] at hanswers
    exact ⟨engine', hanswers⟩
  · obtain ⟨zipped, levels, ⟨o, engine', hanswers, -, hiff⟩, -, hother⟩ :=
      zip_answers engine rfl [.ref "A", .int 2] [.text "x"] (haccepts (by decide +kernel))
        (haccepts (by decide +kernel))
    obtain ⟨rfl, rfl⟩ := hother (by decide) (by decide)
    rw [hiff.2 (by decide)] at hanswers
    exact ⟨engine', hanswers⟩

end Library

end Reshape
