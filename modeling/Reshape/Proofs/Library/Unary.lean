import Reshape.Proofs.Library.Counting
import Reshape.Proofs.Pattern.Ends
import Reshape.Proofs.Reduction.Levels

/-!
# Sums and differences

A count becomes a sequence of that length (`Library.toUnary_yields`). The sum of two counts is the
length of their sequences one after the other. Their difference is what is left of the first when
elements have come off both, one by one, until the second is empty; if the first is empty before, there
is none (`Library.peel_yields`, `Library.peel_settles_error`).

Each of these is done in a frame on top, so two frames are enough, and the steps are those of the parts
and one more.
-/

namespace Reshape.Library

variable {decls : Declarations} {m n : Nat}

/-! ## Numbers as sequences -/

theorem toUnary_yields (hn : n < 2 ^ 63) :
    toUnary.Yields decls (.count n) (.unary n) ⟨n + 2, 0⟩ := by
  have hvalue := Int64.toInt_ofNat_of_lt hn
  have hpos : 0 ≤ Int64.ofNat n := by
    rw [Int64.le_iff_toInt_le, hvalue]
    exact Int.natCast_nonneg n
  have hyields : toUnary.Yields decls (.int (.ofNat n)) (.unary (Int64.ofNat n).toInt.toNat)
      ⟨(Int64.ofNat n).toInt.toNat + 2, 0⟩ := repeated_yields hpos
  rwa [hvalue, Int.toNat_natCast, ← Term.count_of_lt hn] at hyields

/-- For a rule that asks for a number as a sequence. -/
theorem request_toUnary_yields {rule : Rule} {input : Term} (hn : n < 2 ^ 63) :
    (Request.call toUnary (.count n)).Yields decls rule input (.unary n) ⟨n + 2, 1⟩ :=
  Request.yields_call.2 ⟨_, toUnary_yields hn, rfl⟩

/-- What asks for two numbers as sequences, one after the other, comes to what it comes to then. -/
theorem settles_of_asks_both {α : Type} {rule : Rule} {input : Term} {plan : Plan α}
    {next next' : Term → Plan α} {o : Outcome α} {cost : Cost} (hm : m < 2 ^ 63) (hn : n < 2 ^ 63)
    (hfirst : plan.AsksFirst (.call toUnary (.count m)) next)
    (hsecond : (next (.unary m)).AsksFirst (.call toUnary (.count n)) next')
    (hrest : (next' (.unary n)).Settles decls rule input none o none cost) :
    plan.Settles decls rule input none o none (⟨m + n + 4, 1⟩ + cost) := by
  have hboth := hfirst.settles (request_toUnary_yields hm)
    (hsecond.settles (request_toUnary_yields hn) hrest)
  have hcost : (⟨m + 2, 1⟩ + ⟨n + 2, 1⟩ : Cost) = ⟨m + n + 4, 1⟩ :=
    Cost.mk_add_mk (by omega) rfl
  rwa [← add_assoc, hcost] at hboth

/-! ## Peeling -/

theorem peel_step (decls : Declarations) (m n : Nat) :
    peel.step decls (.seq [.unary (m + 1), .unary (n + 1)]) =
      .note .armTried (.note .armTaken (.done (.again (.seq [.unary m, .unary n])))) := by
  have hsecond (first rest : Pattern) :=
    funext (Pattern.extend?_head decls · first rest .unknown (List.replicate n .unknown))
  rw [Rule.step, peel, Arm.tryEach, Pattern.captures?, Pattern.extend?_pair, Term.unary, Term.unary,
    List.replicate_succ, List.replicate_succ, Pattern.extend?_head, hsecond]
  rfl

theorem peel_goesOn (decls : Declarations) (m n : Nat) :
    peel.GoesOn decls (.seq [.unary (m + 1), .unary (n + 1)]) (.seq [.unary m, .unary n]) := by
  refine ⟨?_, Rule.admitFeedback_of_size_lt ?_⟩
  · rw [peel_step, Plan.yields_note, Plan.yields_note, Plan.yields_done]
    exact ⟨rfl, rfl⟩
  · have hone : Term.unknown.size = 1 := rfl
    simp only [Term.unary, List.replicate_succ, Term.size, Term.sizeAll]
    omega

theorem peel_step_right (decls : Declarations) (m : Nat) :
    peel.step decls (.seq [.unary m, .unary 0]) =
      .note .armTried (.note .armTried (.note .armTaken (.done (.done (.unary m))))) := by
  rw [Rule.step, peel, Arm.tryEach, Pattern.captures?, Pattern.extend?_pair]
  cases m with
  | zero => rfl
  | succ m =>
    rw [Term.unary, List.replicate_succ, Pattern.extend?_head]
    rfl

theorem peel_step_left (decls : Declarations) (n : Nat) :
    peel.step decls (.seq [.unary 0, .unary (n + 1)]) =
      .note .armTried (.note .armTried (
        .fail ⟨.undefinedArithmetic "subtrahend exceeds minuend", []⟩)) := rfl

/-- Elements that both have more come off both, in a step for each. -/
theorem peel_settles {o : Outcome Term} {cost : Cost} (k : Nat)
    (hrest : peel.Settles decls (.seq [.unary m, .unary n]) none o none cost) :
    peel.Settles decls (.seq [.unary (m + k), .unary (n + k)]) none o none
      ⟨cost.steps + k, cost.depth⟩ := by
  induction k with
  | zero => exact hrest
  | succ k ih => exact (peel_goesOn decls (m + k) (n + k)).settles ih

theorem peel_yields (decls : Declarations) (hnm : n ≤ m) :
    peel.Yields decls (.seq [.unary m, .unary n]) (.unary (m - n)) ⟨n + 1, 0⟩ := by
  obtain ⟨rest, rfl⟩ := Nat.exists_eq_add_of_le' hnm
  have hright : peel.Yields decls (.seq [.unary rest, .unary 0]) (.unary rest) ⟨1, 0⟩ := by
    refine .of_done 0 ?_
    rw [peel_step_right, Plan.yields_note, Plan.yields_note, Plan.yields_note, Plan.yields_done]
    exact ⟨rfl, rfl⟩
  have hruns := peel_settles n hright
  rw [Nat.zero_add, Nat.add_comm 1] at hruns
  rwa [Nat.add_sub_cancel]

theorem peel_settles_error (decls : Declarations) (hmn : m < n) :
    peel.Settles decls (.seq [.unary m, .unary n]) none
      (.error ⟨.undefinedArithmetic "subtrahend exceeds minuend", []⟩) none ⟨m + 1, 0⟩ := by
  obtain ⟨rest, rfl⟩ := Nat.exists_eq_add_of_lt hmn
  have hleft : peel.Settles decls (.seq [.unary 0, .unary (rest + 1)]) none
      (.error ⟨.undefinedArithmetic "subtrahend exceeds minuend", []⟩) none ⟨1, 0⟩ := by
    have hplan : (peel.step decls (.seq [.unary 0, .unary (rest + 1)])).Settles decls peel
        (.seq [.unary 0, .unary (rest + 1)]) none
        (.error ⟨.undefinedArithmetic "subtrahend exceeds minuend", []⟩) none 0 := by
      rw [peel_step_left]
      exact .note (.note (.fail _))
    exact .failed hplan
  have hruns := peel_settles m hleft
  rwa [Nat.zero_add, Nat.add_comm 1, Nat.add_right_comm, Nat.add_comm rest] at hruns

/-! ## Sums -/

/-- Both numbers are asked for as sequences, and the elements of both are counted. -/
theorem add_step (decls : Declarations) (x y : Term) :
    ∃ next, (add.step decls (.seq [x, y])).AsksFirst (.call toUnary x) next ∧
      ∀ xs, ∃ next', (next (.seq xs)).AsksFirst (.call toUnary y) next' ∧
        ∀ ys, next' (.seq ys) = .done (.done (.count (xs ++ ys).length)) := by
  refine ⟨_, .note (.note .ask), fun xs => ⟨_, .ask, fun ys => ?_⟩⟩
  rw [← List.append_nil ys, ← joinItems_eq xs, ← joinItems_eq ys]
  rfl

theorem add_yields (decls : Declarations) (hm : m < 2 ^ 63) (hn : n < 2 ^ 63) :
    add.Yields decls (.seq [.count m, .count n]) (.count (m + n)) ⟨m + n + 5, 1⟩ := by
  obtain ⟨next, hfirst, hrest⟩ := add_step decls (.count m) (.count n)
  obtain ⟨next', hsecond, hlast⟩ := hrest (List.replicate m .unknown)
  have hlength : (next' (.unary n)).Yields decls add (.seq [.count m, .count n])
      (.done (.count (m + n))) 0 := by
    rw [Term.unary, hlast, List.length_append, List.length_replicate, List.length_replicate]
    exact Plan.yields_done.2 ⟨rfl, rfl⟩
  exact .of_done _ (settles_of_asks_both hm hn hfirst hsecond hlength)

/-! ## Differences -/

/-- Both numbers are asked for as sequences, then for what peeling leaves, and that is counted. -/
theorem subtract_step (decls : Declarations) (x y : Term) :
    ∃ next, (subtract.step decls (.seq [x, y])).AsksFirst (.call toUnary x) next ∧
      ∀ xs, ∃ next', (next xs).AsksFirst (.call toUnary y) next' ∧
        ∀ ys, ∃ next'', (next' ys).AsksFirst (.call peel (.seq [xs, ys])) next'' ∧
          ∀ rest, next'' (.seq rest) = .done (.done (.count rest.length)) :=
  ⟨_, .note (.note .ask), fun _ => ⟨_, .ask, fun _ => ⟨_, .ask, fun _ => rfl⟩⟩⟩

theorem subtract_yields (decls : Declarations) (hm : m < 2 ^ 63) (hnm : n ≤ m) :
    subtract.Yields decls (.seq [.count m, .count n]) (.count (m - n)) ⟨m + n + n + 6, 1⟩ := by
  obtain ⟨next, hfirst, hrest⟩ := subtract_step decls (.count m) (.count n)
  obtain ⟨next', hsecond, hrest'⟩ := hrest (.unary m)
  obtain ⟨next'', hthird, hlast⟩ := hrest' (.unary n)
  have hpeel : (Request.call peel (.seq [.unary m, .unary n])).Yields decls subtract
      (.seq [.count m, .count n]) (.unary (m - n)) ⟨n + 1, 1⟩ :=
    Request.yields_call.2 ⟨_, peel_yields decls hnm, rfl⟩
  have hlength : (next'' (.unary (m - n))).Yields decls subtract (.seq [.count m, .count n])
      (.done (.count (m - n))) 0 := by
    rw [Term.unary, hlast, List.length_replicate]
    exact Plan.yields_done.2 ⟨rfl, rfl⟩
  have hyields := Rule.Yields.of_done _ (settles_of_asks_both hm (hnm.trans_lt hm) hfirst hsecond
    (hthird.yields hpeel hlength))
  have hcost : (⟨m + n + 4, 1⟩ + (⟨n + 1, 1⟩ + 0) : Cost).step = ⟨m + n + n + 6, 1⟩ := by
    ext
    · show m + n + 4 + (n + 1 + 0) + 1 = m + n + n + 6
      omega
    · rfl
  rwa [hcost] at hyields

/-- What is to be taken off is more than there is. -/
theorem subtract_settles_error (decls : Declarations) (hn : n < 2 ^ 63) (hmn : m < n) :
    subtract.Settles decls (.seq [.count m, .count n]) none
      (.error ⟨.undefinedArithmetic "subtrahend exceeds minuend", ["peel"]⟩) none
      ⟨m + n + m + 6, 1⟩ := by
  obtain ⟨next, hfirst, hrest⟩ := subtract_step decls (.count m) (.count n)
  obtain ⟨next', hsecond, hrest'⟩ := hrest (.unary m)
  obtain ⟨next'', hthird, -⟩ := hrest' (.unary n)
  have hpeel : (Request.call peel (.seq [.unary m, .unary n])).Settles decls subtract
      (.seq [.count m, .count n]) none
      (.error ⟨.undefinedArithmetic "subtrahend exceeds minuend", ["peel"]⟩) none ⟨m + 1, 1⟩ :=
    .call (.failed rfl (peel_settles_error decls hmn))
  have hfails := Rule.Settles.failed (settles_of_asks_both (hmn.trans hn) hn hfirst hsecond
    (hthird.settles_error hpeel))
  have hcost : (⟨m + n + 4, 1⟩ + ⟨m + 1, 1⟩ : Cost).step = ⟨m + n + m + 6, 1⟩ := by
    ext
    · show m + n + 4 + (m + 1) + 1 = m + n + m + 6
      omega
    · rfl
  rwa [hcost] at hfails

end Reshape.Library
