import Mathlib.Algebra.Group.Nat.Defs
import Reshape.Assignable

/-!
# Integers and counts

Integers fit each other only if they are equal. A count is an integer, as long as there is one for it:
those below 2⁶³ are told apart, and told from negative integers (`Declarations.equivalent_count_int`).
-/

namespace Reshape

theorem Term.count_of_lt {n : Nat} (h : n < 2 ^ 63) : count n = .int (.ofNat n) := by
  have hlargest : Int64.maxValue.toInt.toNat = 2 ^ 63 - 1 := rfl
  rw [count, hlargest, Nat.min_eq_left (by omega)]

/-- A count past the largest integer is that integer. -/
theorem Term.count_min (n : Nat) : count (min n (2 ^ 63 - 1)) = count n := by
  have hlargest : Int64.maxValue.toInt.toNat = 2 ^ 63 - 1 := rfl
  rw [count, count, hlargest, Nat.min_assoc, Nat.min_self]

namespace Declarations

variable (decls : Declarations)

theorem equivalent_int (a b : Int64) : decls.equivalent (.int a) (.int b) = decide (a = b) := by
  have hfits (a b : Int64) : decls.assignable (.int a) (.int b) = (Atom.int a == .int b) :=
    Bool.or_false _
  rw [equivalent, hfits, hfits, Bool.eq_iff_iff, Bool.and_eq_true, beq_iff_eq, beq_iff_eq,
    Atom.int.injEq, Atom.int.injEq, eq_comm (a := b), and_self, decide_eq_true_eq]

theorem equivalent_count_int {n : Nat} (hn : n < 2 ^ 63) (a : Int64) :
    decls.equivalent (.count n) (.int a) = decide ((n : Int) = a.toInt) := by
  rw [Term.count_of_lt hn, equivalent_int, decide_eq_decide, ← Int64.toInt_inj,
    Int64.toInt_ofNat_of_lt hn]

/-- No count is a negative integer. -/
theorem equivalent_count_negative (n : Nat) {a : Int64} (ha : a < 0) :
    decls.equivalent (.count n) (.int a) = false := by
  have hnegative : a.toInt < 0 := Int64.lt_iff_toInt_lt.1 ha
  rw [← Term.count_min, equivalent_count_int decls (by omega), decide_eq_false_iff_not]
  omega

/-- Counts are told apart up to the largest integer. -/
theorem equivalent_count (m n : Nat) :
    decls.equivalent (.count m) (.count n) = decide (min m (2 ^ 63 - 1) = min n (2 ^ 63 - 1)) := by
  have hn : min n (2 ^ 63 - 1) < 2 ^ 63 := by omega
  rw [← Term.count_min m, ← Term.count_min n, Term.count_of_lt hn,
    equivalent_count_int decls (by omega), Int64.toInt_ofNat_of_lt hn, decide_eq_decide, Int.natCast_inj]

end Declarations

end Reshape
