import Mathlib.Data.Nat.Fib.Basic
import Reshape.Proofs.Arithmetic.Operations
import Reshape.Proofs.Library.Counting

/-!
# Fibonacci numbers

The rule goes through the Fibonacci numbers with a counter beside them: two neighbours as sequences,
the second with the counter as its index (`Library.ascending`). It starts one place before the
sequence, at `1, 0`, and each step puts the neighbours together. So it comes to the number with the
index that is asked for, in a step for each index up to it, one to start with and one to see that the
index is reached (`Library.fibonacci_yields`), and the operation gives that number
(`Arithmetic.fibonacci_exact`).
-/

namespace Reshape

namespace Library

variable {decls : Declarations} {n : Int64}

/-- The number before the one with an index. Before the first there is a `1`, so that the second is the
sum of two as well. -/
def preceding : Nat → Nat
  | 0 => 1
  | k + 1 => Nat.fib k

theorem preceding_add_fib (k : Nat) : preceding k + Nat.fib k = Nat.fib (k + 1) := by
  cases k with
  | zero => rfl
  | succ k => exact Nat.fib_add_two.symm

/-- The index that is asked for, and then two neighbours, the index of the second and the index that is
asked for. -/
def ascending (n : Int64) : Nat → Term
  | 0 => .int n
  | k + 1 => .seq [.unary (preceding k), .unary (Nat.fib k), .unary k, .int n]

theorem fibonacci_step_start (decls : Declarations) (n : Int64) :
    fibonacci.step decls (.int n) =
      .note .armTried (.note .armTaken (
        .done (.again (.seq [.unary 1, .seq [], .seq [], .int n])))) := rfl

theorem fibonacci_step (decls : Declarations) (n : Int64) (previous current index : List Term) :
    fibonacci.step decls (.seq [.seq previous, .seq current, .seq index, .int n]) =
      .note .armTried (.note .armTried (
        if decls.equivalent (.count index.length) (.int n) then
          .note .armTaken (.done (.done (.count current.length)))
        else .note .armTried (.note .armTaken (
          .done (.again (.seq [.seq current, .seq (previous ++ current),
            .seq (index ++ [.unknown]), .int n])))))) := by
  rw [← joinItems_eq previous]
  rfl

theorem fibonacci_goesOn_start : fibonacci.GoesOn decls (ascending n 0) (ascending n 1) := by
  refine ⟨?_, rfl⟩
  rw [ascending, fibonacci_step_start, Plan.yields_note, Plan.yields_note, Plan.yields_done]
  exact ⟨rfl, rfl⟩

/-- Before the index is reached, the neighbours move on by one. -/
theorem fibonacci_goesOn {k : Nat} (h : decls.equivalent (.count k) (.int n) = false) :
    fibonacci.GoesOn decls (ascending n (k + 1)) (ascending n (k + 2)) := by
  refine ⟨?_, rfl⟩
  rw [ascending, ascending, Term.unary, Term.unary, Term.unary, fibonacci_step, List.length_replicate,
    h, if_neg Bool.false_ne_true, List.replicate_append_replicate, preceding_add_fib,
    ← List.replicate_succ', Plan.yields_note, Plan.yields_note, Plan.yields_note, Plan.yields_note,
    Plan.yields_done]
  exact ⟨rfl, rfl⟩

theorem fibonacci_yields (decls : Declarations) {n : Nat} (hn : n < 2 ^ 63) :
    fibonacci.Yields decls (.int (.ofNat n)) (.count (Nat.fib n)) ⟨n + 2, 0⟩ := by
  have htoInt : (Int64.ofNat n).toInt = n := Int64.toInt_ofNat_of_lt hn
  have hreached : fibonacci.Yields decls (ascending (.ofNat n) (n + 1)) (.count (Nat.fib n))
      ⟨1, 0⟩ := by
    have hcount : decls.equivalent (.count n) (.int (.ofNat n)) = true := by
      rw [decls.equivalent_count_int hn, htoInt, decide_eq_true rfl]
    refine .of_done 0 ?_
    rw [ascending, Term.unary, Term.unary, Term.unary, fibonacci_step, List.length_replicate,
      List.length_replicate, hcount, if_pos rfl, Plan.yields_note, Plan.yields_note, Plan.yields_note,
      Plan.yields_done]
    exact ⟨rfl, rfl⟩
  refine Rule.yields_of_counting fibonacci_goesOn_start (fun k hk => fibonacci_goesOn ?_) hreached
  rw [decls.equivalent_count_int (by omega), htoInt, decide_eq_false_iff_not]
  omega

end Library

namespace Arithmetic

/-- What the Fibonacci number with an index comes to. -/
def Ascends (mode : Mode) (n : UInt64) : Outcome UInt64 → Prop :=
  Computes mode .fibonacci natural (operand n)

/-- An index with a Fibonacci number that fits an integer fits one too. -/
theorem lt_of_fib_lt {n : Nat} (h : Nat.fib n < 2 ^ 63) : n < 2 ^ 63 := by
  by_contra hlarge
  have hle : n ≤ Nat.fib n := Nat.le_fib_self (by omega)
  omega

/-- The Fibonacci number with an index, if it fits an integer, is what the rule makes of the index and
what the operation gives: both take one frame and two steps more than the index, and where these are
not allowed a limit is reached. -/
theorem fibonacci_exact (decls : Declarations) (mode : Mode) (n : Nat) (hfits : Nat.fib n < 2 ^ 63) :
    Library.fibonacci.EndsWithin decls mode (.int (.ofNat n)) (.int (.ofNat (Nat.fib n)))
      ⟨n + 2, 1⟩ ∧
    ∃ o, Concludes mode (fibonacci (.ofNat n)) (Ascends mode (.ofNat n)) o ∧
      (o = .ok (.ofNat (Nat.fib n)) ∨ o.hitLimit = true) ∧
      (o = .ok (.ofNat (Nat.fib n)) ↔
        1 ≤ mode.maxDepth ∧ ∀ budget ∈ mode.budget?, n + 2 ≤ budget) := by
  have hn := lt_of_fib_lt hfits
  have hyields := fun decls => Library.fibonacci_yields decls hn
  simp only [Term.count_of_lt hfits] at hyields
  refine ⟨(hyields decls).endsWithin rfl mode, ?_⟩
  have hsize : (UInt64.ofNat n).toNat = n := UInt64.toNat_ofNat_of_lt' (hn.trans (by decide))
  have hinput : operand (.ofNat n) = .ok (.int (.ofNat n)) := by
    rw [operand_eq (hsize.symm ▸ hn), hsize, Term.count_of_lt hn]
  have hcacheable : Call.Cacheable (.apply .fibonacci [] (.int (.ofNat n))) :=
    ⟨by decide, List.forall_mem_nil _, by simp [Term.int]⟩
  have hread : natural (.int (.ofNat (Nat.fib n))) = .ok (.ofNat (Nat.fib n)) := by
    rw [← Term.count_of_lt hfits, natural_count hfits]
  exact exists_concludes hinput rfl hcacheable ((hyields ∅).enters.endsAs rfl rfl mode) hread rfl

/-- The tenth number takes twelve steps. -/
theorem fibonacci_of_ten :
    fibonacci 10 { mode := .custom 1 (some 12) } = .ok 55 { mode := .custom 1 (some 12) } := by
  obtain ⟨-, o, hconcludes, -, hiff⟩ :=
    fibonacci_exact ∅ (.custom 1 (some 12)) 10 (by decide)
  rw [hiff.2 (by decide)] at hconcludes
  exact hconcludes.run nofun

end Arithmetic

end Reshape
