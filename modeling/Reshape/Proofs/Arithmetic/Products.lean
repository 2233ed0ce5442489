import Reshape.Proofs.Arithmetic.Operations
import Reshape.Proofs.Library.Products

/-!
# Products and quotients of numbers

Operands that fit an integer are multiplied and divided exactly, at the costs of the rules
(`Arithmetic.multiply_concludes`, `Arithmetic.divide_concludes`). A product past the largest integer is
that integer, as every count is. A division comes to a quotient only if nothing is left over; so it
takes back what a multiplication did, if the product fits (`Arithmetic.products_exact`).
-/

namespace Reshape.Arithmetic

variable {a b : UInt64}

/-- What `a * b` comes to. -/
def Multiplies (mode : Mode) (a b : UInt64) : Outcome UInt64 → Prop :=
  Computes mode .multiply natural (operands a b)

/-- What `a / b` comes to. -/
def Divides (mode : Mode) (a b : UInt64) : Outcome UInt64 → Prop :=
  Computes mode .divide natural (operands a b)

/-- The product, or the largest integer if the product is past it. -/
def product (a b : UInt64) : UInt64 := .ofNat (min (a.toNat * b.toNat) (2 ^ 63 - 1))

/-- The failure of a division by zero. -/
def byZero : Failure := ⟨.undefinedArithmetic "division by zero", ["divide"]⟩

/-- The failure of a division that leaves something over: the remainder is less than the divisor. -/
def leavesOver : Failure :=
  ⟨.undefinedArithmetic "subtrahend exceeds minuend", ["peel", "divide"]⟩

/-- The quotient, if there is one and nothing is left over. -/
def quotient (a b : UInt64) : Outcome UInt64 :=
  if b = 0 then .error byZero else if b.toNat ∣ a.toNat then .ok (a / b) else .error leavesOver

/-- The steps of a division: those that make sequences of the operands, a round for each time that the
divisor comes off, and the last round, which is longer if there is a remainder to peel. -/
def divisionSteps (a b : Nat) : Nat :=
  a + b + a / b * (b + 2) + if b = 0 ∨ b ∣ a then 6 else a % b + 7

theorem product_of_lt (h : a.toNat * b.toNat < 2 ^ 63) : product a b = a * b := by
  have hmin : min (a.toNat * b.toNat) (2 ^ 63 - 1) = a.toNat * b.toNat :=
    Nat.min_eq_left (Nat.le_sub_one_of_lt h)
  rw [product, hmin, UInt64.ofNat_mul, UInt64.ofNat_toNat, UInt64.ofNat_toNat]

theorem toNat_mul_of_lt (h : a.toNat * b.toNat < 2 ^ 63) : (a * b).toNat = a.toNat * b.toNat := by
  rw [UInt64.toNat_mul, Nat.mod_eq_of_lt (h.trans (by decide))]

theorem hitLimit_quotient (a b : UInt64) : (quotient a b).hitLimit = false := by
  unfold quotient
  split
  · rfl
  · split <;> rfl

/-- What was multiplied is divided again. -/
theorem quotient_mul (hb : b ≠ 0) (h : a.toNat * b.toNat < 2 ^ 63) : quotient (a * b) b = .ok a := by
  have hpos : 0 < b.toNat := Nat.pos_of_ne_zero fun h => hb (UInt64.toNat_inj.1 h)
  have hdvd : b.toNat ∣ (a * b).toNat := by
    rw [toNat_mul_of_lt h]
    exact Nat.dvd_mul_left _ _
  have hdiv : a * b / b = a := by
    rw [← UInt64.toNat_inj, UInt64.toNat_div, toNat_mul_of_lt h, Nat.mul_div_cancel _ hpos]
  rw [quotient, if_neg hb, if_pos hdvd, hdiv]

theorem multiply_concludes (mode : Mode) (ha : a.toNat < 2 ^ 63) (hb : b.toNat < 2 ^ 63) :
    ∃ o, Concludes mode (multiply a b) (Multiplies mode a b) o ∧
      (o = .ok (product a b) ∨ o.hitLimit = true) ∧
      (o = .ok (product a b) ↔
        2 ≤ mode.maxDepth ∧ ∀ budget ∈ mode.budget?, a.toNat + 4 * b.toNat + 6 ≤ budget) := by
  have hmultiply : multiply a b = compute .multiply natural (operands a b) := applyPair_bind _ _ a b
  have hread : natural (.count (a.toNat * b.toNat)) = .ok (product a b) := by
    rw [← Term.count_min, natural_count (by omega), product]
  rw [hmultiply]
  exact exists_concludes (operands_eq ha hb) rfl (cacheable_counts .multiply _ _ (by decide))
    ((Library.multiply_yields ∅ ha hb).enters.endsAs rfl rfl mode) hread rfl

theorem divide_concludes (mode : Mode) (ha : a.toNat < 2 ^ 63) (hb : b.toNat < 2 ^ 63) :
    ∃ o, Concludes mode (divide a b) (Divides mode a b) o ∧
      (o = quotient a b ∨ o.hitLimit = true) ∧
      (o = quotient a b ↔
        2 ≤ mode.maxDepth ∧ ∀ budget ∈ mode.budget?, divisionSteps a.toNat b.toNat ≤ budget) := by
  have hdivide : divide a b = compute .divide natural (operands a b) := applyPair_bind _ _ a b
  have hcacheable := cacheable_counts .divide a.toNat b.toNat (by decide)
  rw [hdivide]
  by_cases hzero : b = 0
  · subst hzero
    have hfails : Library.divide.Enters ∅ (.seq [.count a.toNat, .count 0]) none (.error byZero) none
        ⟨a.toNat + 6, 2⟩ := .failed rfl (Library.divide_settles_zero ∅ ha)
    have hsteps : divisionSteps a.toNat 0 = a.toNat + 6 := by
      rw [divisionSteps, if_pos (.inl rfl), Nat.div_zero, Nat.zero_mul, Nat.add_zero, Nat.add_zero]
    rw [quotient, if_pos rfl, UInt64.toNat_zero, hsteps]
    exact exists_concludes (operands_eq ha hb) rfl hcacheable (hfails.endsAs rfl rfl mode) rfl rfl
  · have hpos : 0 < b.toNat := Nat.pos_of_ne_zero fun h => hzero (UInt64.toNat_inj.1 h)
    by_cases hdvd : b.toNat ∣ a.toNat
    · have hless : a.toNat / b.toNat < 2 ^ 63 := (Nat.div_le_self _ _).trans_lt ha
      have hread : natural (.count (a.toNat / b.toNat)) = .ok (a / b) := by
        rw [natural_count hless, ← UInt64.toNat_div, UInt64.ofNat_toNat]
      rw [quotient, if_neg hzero, if_pos hdvd, divisionSteps, if_pos (.inr hdvd)]
      exact exists_concludes (operands_eq ha hb) rfl hcacheable
        ((Library.divide_yields ∅ ha hb hpos hdvd).enters.endsAs rfl rfl mode) hread rfl
    · have hfails : Library.divide.Enters ∅ (.seq [.count a.toNat, .count b.toNat]) none
          (.error leavesOver) none
          ⟨a.toNat + b.toNat + a.toNat / b.toNat * (b.toNat + 2) + a.toNat % b.toNat + 7, 2⟩ :=
        .failed rfl (Library.divide_settles_inexact ∅ ha hb hpos hdvd)
      rw [quotient, if_neg hzero, if_neg hdvd, divisionSteps, if_neg (not_or.2 ⟨hpos.ne', hdvd⟩),
        ← Nat.add_assoc]
      exact exists_concludes (operands_eq ha hb) rfl hcacheable (hfails.endsAs rfl rfl mode) rfl rfl

/-- A division of what fits comes to its quotient, and does so for certain without a budget. -/
theorem divide_concludes_of_eq (mode : Mode) {q : UInt64} (ha : a.toNat < 2 ^ 63)
    (hb : b.toNat < 2 ^ 63) (h : quotient a b = .ok q) :
    ∃ o, Concludes mode (divide a b) (Divides mode a b) o ∧ (o = .ok q ∨ o.hitLimit = true) ∧
      (mode.budget? = none → 2 ≤ mode.maxDepth → o = .ok q) := by
  obtain ⟨o, hconcludes, hor, hiff⟩ := divide_concludes mode ha hb
  rw [h] at hor hiff
  refine ⟨o, hconcludes, hor, fun hnone hdepth => hiff.2 ⟨hdepth, fun budget hbudget => ?_⟩⟩
  rw [hnone] at hbudget
  cases hbudget

/-- Operands that fit an integer are multiplied and divided exactly, or a limit is reached. A product,
if it fits as well, is the product; a quotient is there if the divisor is not zero and leaves nothing
over, and otherwise it is undefined. Either takes two frames, and how many steps depends on the operands
alone, so without a budget no limit is reached where two frames are allowed. Dividing a product by its
second factor gives the first one, and dividing by one changes nothing. -/
theorem products_exact (mode : Mode) (a b : UInt64) (ha : a.toNat < 2 ^ 63) (hb : b.toNat < 2 ^ 63) :
    (∃ o, Concludes mode (multiply a b) (Multiplies mode a b) o ∧
      (a.toNat * b.toNat < 2 ^ 63 → o = .ok (a * b) ∨ o.hitLimit = true) ∧
      (o.hitLimit = false ↔
        2 ≤ mode.maxDepth ∧ ∀ budget ∈ mode.budget?, a.toNat + 4 * b.toNat + 6 ≤ budget)) ∧
    (∃ o, Concludes mode (divide a b) (Divides mode a b) o ∧
      (b ≠ 0 → b.toNat ∣ a.toNat → o = .ok (a / b) ∨ o.hitLimit = true) ∧
      (b ≠ 0 → ¬ b.toNat ∣ a.toNat → o = .error leavesOver ∨ o.hitLimit = true) ∧
      (b = 0 → o = .error byZero ∨ o.hitLimit = true) ∧
      (o.hitLimit = false ↔
        2 ≤ mode.maxDepth ∧ ∀ budget ∈ mode.budget?, divisionSteps a.toNat b.toNat ≤ budget)) ∧
    (b ≠ 0 → a.toNat * b.toNat < 2 ^ 63 → ∀ p, Multiplies mode a b (.ok p) →
      ∃ o, Concludes mode (divide p b) (Divides mode p b) o ∧ (o = .ok a ∨ o.hitLimit = true) ∧
        (mode.budget? = none → 2 ≤ mode.maxDepth → o = .ok a)) ∧
    ∃ o, Concludes mode (divide a 1) (Divides mode a 1) o ∧ (o = .ok a ∨ o.hitLimit = true) ∧
      (mode.budget? = none → 2 ≤ mode.maxDepth → o = .ok a) := by
  obtain ⟨o, hmultiplies, hproduct, hmultiplied⟩ := multiply_concludes mode ha hb
  obtain ⟨o', hdivides, hquotient, hdivided⟩ := divide_concludes mode ha hb
  refine ⟨⟨o, hmultiplies, fun hfits => ?_, ?_⟩, ⟨o', hdivides, fun hzero hdvd => ?_,
    fun hzero hdvd => ?_, fun hzero => ?_, ?_⟩, fun hzero hfits p hp => ?_, ?_⟩
  · rwa [product_of_lt hfits] at hproduct
  · rw [← hmultiplied]
    exact ⟨fun hwithin => hproduct.resolve_right (Bool.eq_false_iff.1 hwithin), fun heq => heq ▸ rfl⟩
  · rwa [quotient, if_neg hzero, if_pos hdvd] at hquotient
  · rwa [quotient, if_neg hzero, if_neg hdvd] at hquotient
  · rwa [quotient, if_pos hzero] at hquotient
  · rw [← hdivided]
    exact ⟨fun hwithin => hquotient.resolve_right (Bool.eq_false_iff.1 hwithin),
      fun heq => heq ▸ hitLimit_quotient a b⟩
  · obtain rfl := (hmultiplies.computes_iff _).1 hp
    have hresult : p = a * b := by
      rw [product_of_lt hfits] at hproduct
      exact Except.ok.inj (hproduct.resolve_right Bool.false_ne_true)
    subst hresult
    exact divide_concludes_of_eq mode ((toNat_mul_of_lt hfits).trans_lt hfits) hb
      (quotient_mul hzero hfits)
  · have hone : quotient a 1 = .ok a := by
      have hmul : (a * 1 : UInt64) = a := UInt64.mul_one a
      have hfits : a.toNat * (1 : UInt64).toNat < 2 ^ 63 := by simpa using ha
      rw [← hmul, quotient_mul (by decide) hfits, hmul]
    exact divide_concludes_of_eq mode ha (by decide) hone

/-- Six times two and six by two, and six times two by two where there is no budget. -/
theorem products_of_six_and_two :
    (let engine : Engine := { mode := .custom 2 (some 26) }
     multiply 6 2 engine = .ok 12 engine ∧ divide 6 2 engine = .ok 3 engine) ∧
    ∃ p, Multiplies (.custom 2 none) 6 2 (.ok p) ∧ Divides (.custom 2 none) p 2 (.ok 6) := by
  have hwithin : ∀ budget ∈ (Mode.custom 2 none).budget?, 6 + 4 * 2 + 6 ≤ budget := nofun
  obtain ⟨⟨twelve, htwelve, hproduct, hmultiplied⟩, ⟨three, hthree, hquotient, -, -, hdivided⟩, -⟩ :=
    products_exact (.custom 2 (some 26)) 6 2 (by decide) (by decide)
  obtain ⟨⟨o, hfirst, hor, hiff⟩, -, hback, -⟩ :=
    products_exact (.custom 2 none) 6 2 (by decide) (by decide)
  rw [(hproduct (by decide)).resolve_right (Bool.eq_false_iff.1 (hmultiplied.2 (by decide)))]
    at htwelve
  rw [(hquotient (by decide) (by decide)).resolve_right (Bool.eq_false_iff.1 (hdivided.2 (by decide)))]
    at hthree
  rw [(hor (by decide)).resolve_right (Bool.eq_false_iff.1 (hiff.2 ⟨by decide, hwithin⟩))] at hfirst
  have hmultiplies : Multiplies (.custom 2 none) 6 2 (.ok 12) := (hfirst.computes_iff _).2 rfl
  obtain ⟨six, hsecond, -, hsix⟩ := hback (by decide) (by decide) 12 hmultiplies
  rw [hsix rfl (by decide)] at hsecond
  exact ⟨⟨htwelve.run nofun, hthree.run nofun⟩, 12, hmultiplies, (hsecond.computes_iff _).2 rfl⟩

end Reshape.Arithmetic
