import Reshape.Proofs.Arithmetic.Operations
import Reshape.Proofs.Library.Unary

/-!
# Sums, differences and comparisons

Operands whose sum fits an integer are added, subtracted and compared exactly, at the costs of the
rules (`Arithmetic.add_concludes`, `Arithmetic.subtract_concludes`, `Arithmetic.greaterThan_concludes`).
The three rules go different ways about it, and agree: a number is greater than another exactly if it
cannot be taken off that (`Arithmetic.sums_exact`).
-/

namespace Reshape.Arithmetic

variable {a b : UInt64}

/-- What `a + b` comes to. -/
def Adds (mode : Mode) (a b : UInt64) : Outcome UInt64 → Prop :=
  Computes mode .add natural (operands a b)

/-- What `a - b` comes to. -/
def Subtracts (mode : Mode) (a b : UInt64) : Outcome UInt64 → Prop :=
  Computes mode .subtract natural (operands a b)

/-- What it comes to whether `a` is greater than `b`. -/
def Compares (mode : Mode) (a b : UInt64) : Outcome Bool → Prop :=
  Computes mode .greaterThan boolean (operands a b)

/-- The failure of a subtraction that takes off more than there is. -/
def exceeds : Failure :=
  ⟨.undefinedArithmetic "subtrahend exceeds minuend", ["peel", "subtract"]⟩

/-- The difference, if the second number can be taken off the first. -/
def difference (a b : UInt64) : Outcome UInt64 := if b ≤ a then .ok (a - b) else .error exceeds

theorem hitLimit_difference (a b : UInt64) : (difference a b).hitLimit = false := by
  unfold difference
  split <;> rfl

theorem difference_eq_error_iff : difference a b = .error exceeds ↔ a < b := by
  unfold difference
  split
  · next hle => exact iff_of_false nofun (UInt64.not_lt.2 hle)
  · next hle => exact iff_of_true rfl (UInt64.not_le.1 hle)

theorem add_concludes (mode : Mode) (hfits : a.toNat + b.toNat < 2 ^ 63) :
    ∃ o, Concludes mode (add a b) (Adds mode a b) o ∧ (o = .ok (a + b) ∨ o.hitLimit = true) ∧
      (o = .ok (a + b) ↔
        2 ≤ mode.maxDepth ∧ ∀ budget ∈ mode.budget?, a.toNat + b.toNat + 5 ≤ budget) := by
  have ha : a.toNat < 2 ^ 63 := by omega
  have hb : b.toNat < 2 ^ 63 := by omega
  have hread : natural (.count (a.toNat + b.toNat)) = .ok (a + b) := by
    rw [natural_count hfits, UInt64.ofNat_add, UInt64.ofNat_toNat, UInt64.ofNat_toNat]
  have hadd : add a b = compute .add natural (operands a b) := applyPair_bind _ _ a b
  rw [hadd]
  exact exists_concludes (operands_eq ha hb) rfl (cacheable_counts .add _ _ (by decide))
    ((Library.add_yields ∅ ha hb).enters.endsAs rfl rfl mode) hread rfl

theorem subtract_concludes (mode : Mode) (ha : a.toNat < 2 ^ 63) (hb : b.toNat < 2 ^ 63) :
    ∃ o, Concludes mode (subtract a b) (Subtracts mode a b) o ∧
      (o = difference a b ∨ o.hitLimit = true) ∧
      (o = difference a b ↔ 2 ≤ mode.maxDepth ∧
        ∀ budget ∈ mode.budget?, a.toNat + b.toNat + min a.toNat b.toNat + 6 ≤ budget) := by
  have hsubtract : subtract a b = compute .subtract natural (operands a b) := applyPair_bind _ _ a b
  have hcacheable := cacheable_counts .subtract a.toNat b.toNat (by decide)
  rw [hsubtract]
  by_cases hle : b ≤ a
  · have hle' : b.toNat ≤ a.toNat := UInt64.le_iff_toNat_le.1 hle
    have hread : natural (.count (a.toNat - b.toNat)) = .ok (a - b) := by
      rw [natural_count (by omega), UInt64.ofNat_sub hle', UInt64.ofNat_toNat, UInt64.ofNat_toNat]
    rw [difference, if_pos hle, Nat.min_eq_right hle']
    exact exists_concludes (operands_eq ha hb) rfl hcacheable
      ((Library.subtract_yields ∅ ha hle').enters.endsAs rfl rfl mode) hread rfl
  · have hless : a.toNat < b.toNat := UInt64.lt_iff_toNat_lt.1 (UInt64.not_le.1 hle)
    have hfails : Library.subtract.Enters ∅ (.seq [.count a.toNat, .count b.toNat]) none
        (.error exceeds) none ⟨a.toNat + b.toNat + a.toNat + 6, 2⟩ :=
      .failed rfl (Library.subtract_settles_error ∅ hb hless)
    rw [difference, if_neg hle, Nat.min_eq_left hless.le]
    exact exists_concludes (operands_eq ha hb) rfl hcacheable (hfails.endsAs rfl rfl mode) rfl rfl

theorem greaterThan_concludes (mode : Mode) (ha : a.toNat < 2 ^ 63) (hb : b.toNat < 2 ^ 63) :
    ∃ o, Concludes mode (greaterThan a b) (Compares mode a b) o ∧
      (o = .ok (decide (b < a)) ∨ o.hitLimit = true) ∧
      (o = .ok (decide (b < a)) ↔ 1 ≤ mode.maxDepth ∧
        ∀ budget ∈ mode.budget?, (if a = b then 2 else min a.toNat b.toNat + 2) ≤ budget) := by
  have hgreater : greaterThan a b = compute .greaterThan boolean (operands a b) :=
    applyPair_bind _ _ a b
  have hcacheable := cacheable_counts .greaterThan a.toNat b.toNat (by decide)
  have ha' : 0 ≤ a.toInt64 := (Library.nonneg_iff_unsigned_lt _).2 ha
  have hb' : 0 ≤ b.toInt64 := (Library.nonneg_iff_unsigned_lt _).2 hb
  have hends := Library.greaterThan_endsAs ∅ mode (iff_of_true ha' hb') (.inr ha')
  have hless : b.toInt64 < a.toInt64 ↔ b < a := Library.lt_iff_unsigned_lt ha' hb'
  have hequal : a.toInt64 = b.toInt64 ↔ a = b := ⟨congrArg Int64.toUInt64, congrArg UInt64.toInt64⟩
  simp only [decide_eq_decide.2 hless, hequal, UInt64.toUInt64_toInt64, ← count_toNat ha,
    ← count_toNat hb] at hends
  have hread : (Except.ok (Term.bool (decide (b < a))) >>= boolean) = .ok (decide (b < a)) := rfl
  rw [hgreater]
  exact exists_concludes (operands_eq ha hb) rfl hcacheable hends hread rfl

/-- Operands whose sum fits an integer are added, subtracted and compared exactly, or a limit is
reached. A sum takes two frames and five steps more than the operands together; a difference, defined
or not, takes two frames, and six steps more than the operands together and the smaller one again; a
comparison takes one frame, and two steps more than the smaller operand, or two if they are equal. A
number is greater than another exactly if taking it off the other is undefined. -/
theorem sums_exact (mode : Mode) (a b : UInt64) (hfits : a.toNat + b.toNat < 2 ^ 63) :
    (∃ o, Concludes mode (add a b) (Adds mode a b) o ∧ (o = .ok (a + b) ∨ o.hitLimit = true) ∧
      (o = .ok (a + b) ↔
        2 ≤ mode.maxDepth ∧ ∀ budget ∈ mode.budget?, a.toNat + b.toNat + 5 ≤ budget)) ∧
    (∃ o, Concludes mode (subtract a b) (Subtracts mode a b) o ∧
      (b ≤ a → o = .ok (a - b) ∨ o.hitLimit = true) ∧
      (a < b → o = .error exceeds ∨ o.hitLimit = true) ∧
      (o.hitLimit = false ↔ 2 ≤ mode.maxDepth ∧
        ∀ budget ∈ mode.budget?, a.toNat + b.toNat + min a.toNat b.toNat + 6 ≤ budget)) ∧
    ∃ o, Concludes mode (greaterThan a b) (Compares mode a b) o ∧
      (o = .ok (decide (b < a)) ∨ o.hitLimit = true) ∧
      (o = .ok (decide (b < a)) ↔ 1 ≤ mode.maxDepth ∧
        ∀ budget ∈ mode.budget?, (if a = b then 2 else min a.toNat b.toNat + 2) ≤ budget) ∧
      ∀ o', Subtracts mode b a o' → o.hitLimit = false → o'.hitLimit = false →
        (o = .ok true ↔ o' = .error exceeds) := by
  have ha : a.toNat < 2 ^ 63 := by omega
  have hb : b.toNat < 2 ^ 63 := by omega
  refine ⟨add_concludes mode hfits, ?_, ?_⟩
  · obtain ⟨o, hconcludes, hor, hiff⟩ := subtract_concludes mode ha hb
    refine ⟨o, hconcludes, fun hle => ?_, fun hless => ?_, ?_⟩
    · rwa [difference, if_pos hle] at hor
    · rwa [difference, if_neg (UInt64.not_le.2 hless)] at hor
    · rw [← hiff]
      exact ⟨fun hwithin => hor.resolve_right (Bool.eq_false_iff.1 hwithin),
        fun heq => heq ▸ hitLimit_difference a b⟩
  · obtain ⟨o, hconcludes, hor, hiff⟩ := greaterThan_concludes mode ha hb
    refine ⟨o, hconcludes, hor, hiff, fun o' h' ho ho' => ?_⟩
    obtain ⟨o₁, hconcludes₁, hor₁, -⟩ := subtract_concludes mode hb ha
    obtain rfl := (hconcludes₁.computes_iff o').1 h'
    rw [hor.resolve_right (Bool.eq_false_iff.1 ho), hor₁.resolve_right (Bool.eq_false_iff.1 ho'),
      difference_eq_error_iff, Except.ok.injEq, decide_eq_true_eq]

/-- Seventeen steps are enough for each of the three. -/
theorem sums_of_three_and_five :
    let engine : Engine := { mode := .custom 2 (some 17) }
    add 3 5 engine = .ok 8 engine ∧ subtract 3 5 engine = .error (.failed exceeds) engine ∧
      greaterThan 3 5 engine = .ok false engine := by
  intro engine
  obtain ⟨⟨sum, hsum, -, hsumIff⟩, ⟨rest, hrest, -, hor, hrestIff⟩,
      ⟨greater, hgreater, -, hgreaterIff, -⟩⟩ :=
    sums_exact (.custom 2 (some 17)) 3 5 (by decide)
  rw [hsumIff.2 (by decide)] at hsum
  rw [(hor (by decide)).resolve_right (Bool.eq_false_iff.1 (hrestIff.2 (by decide)))] at hrest
  rw [hgreaterIff.2 (by decide)] at hgreater
  exact ⟨hsum.run nofun, hrest.run nofun, hgreater.run nofun⟩

end Reshape.Arithmetic
