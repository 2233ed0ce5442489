import Reshape.Proofs.Library.Unary

/-!
# Products and quotients

Both rules make sequences of their operands (`Library.StartsUnary`) and go round in a loop from there,
with a request for what peeling leaves in every round. A product puts the first sequence in front of an
accumulator for each element of the second (`Library.multiply_loop`). A quotient takes the second
sequence off the first and counts how often (`Library.divide_rounds`): what is left in the end is
nothing, and then the count is the quotient, or the remainder, which is too short for another round
(`Library.divide_settles_inexact`). Whether there is anything to take off is asked first, so nothing is
divided by zero, not even zero itself (`Library.divide_settles_zero`).
-/

namespace Reshape.Library

variable {decls : Declarations} {m n : Nat}

/-! ## Rounds -/

/-- A step that makes one request and then goes on comes to what the next term comes to. -/
theorem settles_of_round {rule : Rule} {input answer next : Term} {request : Request}
    {rest : Term → Plan Step} {o : Outcome Term} {cost cost' : Cost}
    (hasks : (rule.step decls input).AsksFirst request rest)
    (hanswer : request.Yields decls rule input answer cost)
    (hrest : rest answer = .done (.again next)) (hadmits : rule.admitFeedback input next = .ok ())
    (hnext : rule.Settles decls next none o none cost') :
    rule.Settles decls input none o none (cost.step + cost') := by
  have hagain : (rest answer).Yields decls rule input (.again next) 0 := by
    rw [hrest, Plan.yields_done]
    exact ⟨rfl, rfl⟩
  have hplan := hasks.yields hanswer hagain
  rw [add_zero] at hplan
  exact .again hplan hadmits hnext

/-- From two numbers the rule goes on with the sequences that stand for them, and nothing yet beside
them. -/
def StartsUnary (decls : Declarations) (rule : Rule) : Prop :=
  ∀ x y : Term, ∃ next, (rule.step decls (.seq [x, y])).AsksFirst (.call toUnary x) next ∧
    ∀ xs, ∃ next', (next xs).AsksFirst (.call toUnary y) next' ∧
      ∀ ys, next' ys = .done (.again (.seq [xs, ys, .unary 0]))

/-- What the sequences come to, the numbers do, after the steps that make them. -/
theorem StartsUnary.settles {rule : Rule} {o : Outcome Term} {cost : Cost}
    (h : StartsUnary decls rule) (hbounded : rule.recursion = .bounded) (hm : m < 2 ^ 63)
    (hn : n < 2 ^ 63)
    (hrest : rule.Settles decls (.seq [.unary m, .unary n, .unary 0]) none o none cost) :
    rule.Settles decls (.seq [.count m, .count n]) none o none (⟨m + n + 5, 1⟩ + cost) := by
  obtain ⟨next, hfirst, hafter⟩ := h (.count m) (.count n)
  obtain ⟨next', hsecond, hlast⟩ := hafter (.unary m)
  have hagain : (next' (.unary n)).Yields decls rule (.seq [.count m, .count n])
      (.again (.seq [.unary m, .unary n, .unary 0])) 0 := by
    rw [hlast, Plan.yields_done]
    exact ⟨rfl, rfl⟩
  have hadmits : rule.admitFeedback (.seq [.count m, .count n])
      (.seq [.unary m, .unary n, .unary 0]) = .ok () := by
    rw [Rule.admitFeedback, hbounded]
    rfl
  exact .again (settles_of_asks_both hm hn hfirst hsecond hagain) hadmits hrest

/-! ## Products -/

theorem multiply_starts (decls : Declarations) : StartsUnary decls multiply :=
  fun _ _ => ⟨_, .note (.note .ask), fun _ => ⟨_, .ask, fun _ => rfl⟩⟩

/-- One element comes off the second sequence, and the first one goes in front of the accumulator. -/
theorem multiply_step (decls : Declarations) (xs ys acc : List Term) (y : Term) :
    ∃ next, (multiply.step decls (.seq [.seq xs, .seq (y :: ys), .seq acc])).AsksFirst
        (.call peel (.seq [.seq (y :: ys), .unary 1])) next ∧
      ∀ rest, next rest = .done (.again (.seq [.seq xs, rest, .seq (xs ++ acc)])) := by
  rw [← joinItems_eq]
  exact ⟨_, .note (.note (.note (.note .ask))), fun _ => rfl⟩

theorem multiply_step_last (decls : Declarations) (xs acc : List Term) :
    multiply.step decls (.seq [.seq xs, .seq [], .seq acc]) =
      .note .armTried (.note .armTried (.note .armTaken (.done (.done (.count acc.length))))) := rfl

theorem multiply_round {k made : Nat} {o : Outcome Term} {cost : Cost}
    (hrest : multiply.Settles decls (.seq [.unary m, .unary k, .unary (m + made)]) none o none cost) :
    multiply.Settles decls (.seq [.unary m, .unary (k + 1), .unary made]) none o none
      (⟨3, 1⟩ + cost) := by
  obtain ⟨next, hasks, hnext⟩ := multiply_step decls (List.replicate m .unknown)
    (List.replicate k .unknown) (List.replicate made .unknown) .unknown
  rw [List.replicate_append_replicate] at hnext
  have hpeel : (Request.call peel (.seq [.unary (k + 1), .unary 1])).Yields decls multiply
      (.seq [.unary m, .unary (k + 1), .unary made]) (.unary k) ⟨2, 1⟩ :=
    Request.yields_call.2 ⟨_, peel_yields decls (Nat.le_add_left 1 k), rfl⟩
  exact settles_of_round hasks hpeel (hnext _) rfl hrest

/-- The loop takes three steps for each element of the second sequence, and one at the end. -/
theorem multiply_loop (decls : Declarations) (m k made : Nat) :
    multiply.Yields decls (.seq [.unary m, .unary k, .unary made]) (.count (m * k + made))
      ⟨3 * k + 1, min k 1⟩ := by
  induction k generalizing made with
  | zero =>
    refine .of_done 0 ?_
    rw [Term.unary, Term.unary, Term.unary, List.replicate_zero, multiply_step_last,
      List.length_replicate, Nat.mul_zero, Nat.zero_add, Plan.yields_note, Plan.yields_note,
      Plan.yields_note, Plan.yields_done]
    exact ⟨rfl, rfl⟩
  | succ k ih =>
    have hruns := multiply_round (ih (m + made))
    have hcost : (⟨3, 1⟩ + ⟨3 * k + 1, min k 1⟩ : Cost) = ⟨3 * (k + 1) + 1, min (k + 1) 1⟩ :=
      Cost.mk_add_mk (by omega) (by omega)
    rwa [hcost, ← Nat.add_assoc, ← Nat.mul_succ] at hruns

theorem multiply_yields (decls : Declarations) (hm : m < 2 ^ 63) (hn : n < 2 ^ 63) :
    multiply.Yields decls (.seq [.count m, .count n]) (.count (m * n)) ⟨m + 4 * n + 6, 1⟩ := by
  have hruns := (multiply_starts decls).settles rfl hm hn (multiply_loop decls m n 0)
  have hcost : (⟨m + n + 5, 1⟩ + ⟨3 * n + 1, min n 1⟩ : Cost) = ⟨m + 4 * n + 6, 1⟩ :=
    Cost.mk_add_mk (by omega) (by omega)
  rwa [hcost] at hruns

/-! ## Quotients -/

theorem divide_starts (decls : Declarations) : StartsUnary decls divide :=
  fun _ _ => ⟨_, .note (.note .ask), fun _ => ⟨_, .ask, fun _ => rfl⟩⟩

/-- The second sequence comes off the first one, and that is counted. -/
theorem divide_step (decls : Declarations) (xs ys count : List Term) (x y : Term) :
    ∃ next, (divide.step decls (.seq [.seq (x :: xs), .seq (y :: ys), .seq count])).AsksFirst
        (.call peel (.seq [.seq (x :: xs), .seq (y :: ys)])) next ∧
      ∀ rest, next rest = .done (.again (.seq [rest, .seq (y :: ys), .seq (.unknown :: count)])) :=
  ⟨_, .note (.note (.note (.note (.note .ask)))), fun _ => rfl⟩

theorem divide_step_last (decls : Declarations) (ys count : List Term) (y : Term) :
    divide.step decls (.seq [.seq [], .seq (y :: ys), .seq count]) =
      .note .armTried (.note .armTried (.note .armTried (.note .armTaken (
        .done (.done (.count count.length)))))) := rfl

/-- Nothing to take off is found before nothing to take it off from. -/
theorem divide_step_zero (decls : Declarations) (xs count : List Term) :
    divide.step decls (.seq [.seq xs, .seq [], .seq count]) =
      .note .armTried (.note .armTried (.note .armTaken (
        .fail ⟨.undefinedArithmetic "division by zero", []⟩))) := rfl

theorem divide_round {q : Nat} {o : Outcome Term} {cost : Cost}
    (hrest : divide.Settles decls (.seq [.unary m, .unary (n + 1), .unary (q + 1)]) none o none
      cost) :
    divide.Settles decls (.seq [.unary (m + (n + 1)), .unary (n + 1), .unary q]) none o none
      (⟨n + 3, 1⟩ + cost) := by
  obtain ⟨next, hasks, hnext⟩ := divide_step decls (List.replicate (m + n) .unknown)
    (List.replicate n .unknown) (List.replicate q .unknown) .unknown .unknown
  have hpeel : (Request.call peel (.seq [.unary (m + (n + 1)), .unary (n + 1)])).Yields decls divide
      (.seq [.unary (m + (n + 1)), .unary (n + 1), .unary q]) (.unary m) ⟨n + 2, 1⟩ := by
    have hpeeled := peel_yields decls (Nat.le_add_left (n + 1) m)
    rw [Nat.add_sub_cancel] at hpeeled
    exact Request.yields_call.2 ⟨_, hpeeled, rfl⟩
  exact settles_of_round hasks hpeel (hnext _) rfl hrest

/-- Multiples of the second number come off the first one, in a round for each. -/
theorem divide_rounds {q : Nat} {o : Outcome Term} {cost : Cost} (k : Nat)
    (hrest : divide.Settles decls (.seq [.unary m, .unary (n + 1), .unary (q + k)]) none o none
      cost) :
    divide.Settles decls (.seq [.unary (m + k * (n + 1)), .unary (n + 1), .unary q]) none o none
      (⟨k * (n + 3), min k 1⟩ + cost) := by
  induction k generalizing q with
  | zero =>
    rw [Nat.zero_mul, Nat.zero_mul]
    exact (zero_add cost).symm ▸ hrest
  | succ k ih =>
    have hrounds := ih (q := q + 1) (by rwa [Nat.add_right_comm])
    have hruns := divide_round hrounds
    have hcost : (⟨n + 3, 1⟩ + ⟨k * (n + 3), min k 1⟩ : Cost) = ⟨(k + 1) * (n + 3), min (k + 1) 1⟩ :=
      Cost.mk_add_mk (by rw [Nat.succ_mul, Nat.add_comm]) (by omega)
    rwa [← add_assoc (⟨n + 3, 1⟩ : Cost), hcost, Nat.add_assoc, ← Nat.succ_mul] at hruns

/-- The rounds of a division, with what comes of the remainder. -/
theorem divide_settles {o : Outcome Term} {cost : Cost} (hm : m < 2 ^ 63) (hn : n < 2 ^ 63)
    (hpos : 0 < n)
    (hrest : divide.Settles decls (.seq [.unary (m % n), .unary n, .unary (m / n)]) none o none
      cost) :
    divide.Settles decls (.seq [.count m, .count n]) none o none
      (⟨m + n + m / n * (n + 2) + 5, 1⟩ + cost) := by
  obtain ⟨n, rfl⟩ := Nat.exists_eq_add_one_of_ne_zero (Nat.ne_of_gt hpos)
  have hrounds := divide_rounds (n := n) (q := 0) (m / (n + 1)) (by rwa [Nat.zero_add])
  rw [Nat.mul_comm (m / (n + 1)), Nat.mod_add_div] at hrounds
  have hruns := (divide_starts decls).settles rfl hm hn hrounds
  have hcost : (⟨m + (n + 1) + 5, 1⟩ + ⟨m / (n + 1) * (n + 3), min (m / (n + 1)) 1⟩ : Cost) =
      ⟨m + (n + 1) + m / (n + 1) * (n + 3) + 5, 1⟩ :=
    Cost.mk_add_mk (by omega) (by omega)
  rwa [← add_assoc (⟨m + (n + 1) + 5, 1⟩ : Cost), hcost] at hruns

/-- Without a remainder there is a quotient. -/
theorem divide_yields (decls : Declarations) (hm : m < 2 ^ 63) (hn : n < 2 ^ 63) (hpos : 0 < n)
    (hdvd : n ∣ m) :
    divide.Yields decls (.seq [.count m, .count n]) (.count (m / n))
      ⟨m + n + m / n * (n + 2) + 6, 1⟩ := by
  have hlast : divide.Yields decls (.seq [.unary (m % n), .unary n, .unary (m / n)])
      (.count (m / n)) ⟨1, 0⟩ := by
    refine .of_done 0 ?_
    rw [Nat.mod_eq_zero_of_dvd hdvd, Term.unary, Term.unary, Term.unary, List.replicate_zero,
      ← Nat.sub_one_add_one (Nat.ne_of_gt hpos), List.replicate_succ, divide_step_last,
      List.length_replicate, Plan.yields_note, Plan.yields_note, Plan.yields_note, Plan.yields_note,
      Plan.yields_done]
    exact ⟨rfl, rfl⟩
  exact divide_settles hm hn hpos hlast

/-- A remainder is too short to take the second number off it. -/
theorem divide_settles_inexact (decls : Declarations) (hm : m < 2 ^ 63) (hn : n < 2 ^ 63)
    (hpos : 0 < n) (hdvd : ¬ n ∣ m) :
    divide.Settles decls (.seq [.count m, .count n]) none
      (.error ⟨.undefinedArithmetic "subtrahend exceeds minuend", ["peel"]⟩) none
      ⟨m + n + m / n * (n + 2) + m % n + 7, 1⟩ := by
  have hrest : 0 < m % n := Nat.pos_of_ne_zero fun h => hdvd (Nat.dvd_of_mod_eq_zero h)
  obtain ⟨k, hk⟩ := Nat.exists_eq_add_one_of_ne_zero (Nat.ne_of_gt hrest)
  obtain ⟨j, rfl⟩ := Nat.exists_eq_add_one_of_ne_zero (Nat.ne_of_gt hpos)
  obtain ⟨next, hasks, -⟩ := divide_step decls (List.replicate k .unknown)
    (List.replicate j .unknown) (List.replicate (m / (j + 1)) .unknown) .unknown .unknown
  have hpeel : (Request.call peel (.seq [.unary (k + 1), .unary (j + 1)])).Settles decls divide
      (.seq [.unary (k + 1), .unary (j + 1), .unary (m / (j + 1))]) none
      (.error ⟨.undefinedArithmetic "subtrahend exceeds minuend", ["peel"]⟩) none ⟨k + 2, 1⟩ :=
    .call (.failed rfl (peel_settles_error decls (hk ▸ Nat.mod_lt m hpos)))
  have hfails : divide.Settles decls (.seq [.unary (k + 1), .unary (j + 1), .unary (m / (j + 1))]) none
      (.error ⟨.undefinedArithmetic "subtrahend exceeds minuend", ["peel"]⟩) none ⟨k + 3, 1⟩ :=
    .failed (hasks.settles_error hpeel)
  have hruns := divide_settles hm hn hpos (hk.symm ▸ hfails)
  have hcost : (⟨m + (j + 1) + m / (j + 1) * (j + 3) + 5, 1⟩ + ⟨k + 3, 1⟩ : Cost) =
      ⟨m + (j + 1) + m / (j + 1) * (j + 3) + (k + 1) + 7, 1⟩ :=
    Cost.mk_add_mk (by omega) rfl
  rw [hk]
  exact hcost ▸ hruns

theorem divide_settles_zero (decls : Declarations) (hm : m < 2 ^ 63) :
    divide.Settles decls (.seq [.count m, .count 0]) none
      (.error ⟨.undefinedArithmetic "division by zero", []⟩) none ⟨m + 6, 1⟩ := by
  have hzero : divide.Settles decls (.seq [.unary m, .unary 0, .unary 0]) none
      (.error ⟨.undefinedArithmetic "division by zero", []⟩) none ⟨1, 0⟩ := by
    have hplan : (divide.step decls (.seq [.unary m, .unary 0, .unary 0])).Settles decls divide
        (.seq [.unary m, .unary 0, .unary 0]) none
        (.error ⟨.undefinedArithmetic "division by zero", []⟩) none 0 := by
      rw [Term.unary, Term.unary, List.replicate_zero, divide_step_zero]
      exact .note (.note (.note (.fail _)))
    exact .failed hplan
  exact (divide_starts decls).settles rfl hm (by decide) hzero

end Reshape.Library
