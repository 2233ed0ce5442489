import Reshape.Arithmetic
import Reshape.Proofs.Declarations.Counts
import Reshape.Proofs.Engine.Operations

/-!
# Operations on numbers

Every operation takes its operands to a term, applies a rule to it and reads the answer
(`Arithmetic.compute`). It is done by an engine without declarations and without a memo, which answers
one call like another and stays as it is. What an operation comes to then only depends on the limits
(`Arithmetic.Computes`), and running the operation gives that, unless there is no budget and it is cut
off (`Arithmetic.Concludes`). What the rule comes to decides (`Arithmetic.exists_concludes`).
-/

namespace Reshape.Arithmetic

variable {α : Type} {mode : Mode} {entry : LibraryRule} {read : Term → Except Failure α}
  {input : Except Failure Term} {term : Term}

/-! ## What is computed -/

/-- Applies a rule without parameters to the input, if there is one, and reads the result. -/
def compute (entry : LibraryRule) (read : Term → Except Failure α) (input : Except Failure Term) :
    Eval Engine α := do
  let term ← Eval.lift input
  Eval.lift (read (← Engine.apply entry [] term))

theorem compute_ok (entry : LibraryRule) (read : Term → Except Failure α) (term : Term)
    (engine : Engine) : compute entry read (.ok term) engine =
      (Engine.apply entry [] term >>= fun result => Eval.lift (read result)) engine := rfl

/-- What that comes to within the limits of the mode, however long it takes. -/
inductive Computes (mode : Mode) (entry : LibraryRule) (read : Term → Except Failure α) :
    Except Failure Term → Outcome α → Prop where
  | rejected (failure : Failure) : Computes mode entry read (.error failure) (.error failure)
  | answered {term : Term} {answer : Outcome Term} :
      Engine.Answers { mode } (.apply entry [] term) answer { mode } →
      Computes mode entry read (.ok term) (answer >>= read)

theorem Computes.unique {o₁ o₂ : Outcome α} (h₁ : Computes mode entry read input o₁)
    (h₂ : Computes mode entry read input o₂) : o₁ = o₂ := by
  cases h₁ with
  | rejected failure =>
    cases h₂
    rfl
  | answered h₁ =>
    cases h₂ with
    | answered h₂ => rw [(h₁.unique h₂).1]

/-- With a budget, running the operation gives what it computes. -/
theorem Computes.run {o : Outcome α} (h : Computes mode entry read input o)
    (hbudget : mode.budget? ≠ none) : compute entry read input { mode } = Eval.lift o { mode } := by
  cases h with
  | rejected failure => rfl
  | @answered term answer h =>
    rw [compute_ok, Eval.bind_apply, h.apply_eq hbudget]
    cases answer <;> rfl

/-- A call leaves the engine as it is. -/
theorem answers_eq {answer : Outcome Term} {engine' : Engine}
    (hcacheable : Call.Cacheable (.apply entry [] term))
    (h : Engine.Answers { mode } (.apply entry [] term) answer engine') : engine' = { mode } := by
  obtain ⟨memo, rfl, -, hnone⟩ := h.correct hcacheable Declarations.wellKeyed_empty nofun
  rw [hnone rfl]

/-- An outcome of running the operation is what it computes. -/
theorem computes_of_run {o : Outcome α} {engine' : Engine}
    (hcacheable : ∀ term, input = .ok term → Call.Cacheable (.apply entry [] term))
    (h : compute entry read input { mode } = Eval.lift o engine') :
    Computes mode entry read input o ∧ engine' = { mode } := by
  cases input with
  | error failure =>
    obtain ⟨rfl, rfl⟩ := Eval.lift_injective (o := .error failure) h
    exact ⟨.rejected failure, rfl⟩
  | ok term =>
    rw [compute_ok] at h
    rcases Eval.bind_eq_lift h with ⟨failure, happly, rfl⟩ | ⟨result, engine₁, happly, hread⟩
    · have hanswers := Engine.answers_of_apply happly
      obtain rfl := answers_eq (hcacheable term rfl) hanswers
      exact ⟨.answered hanswers, rfl⟩
    · have hanswers := Engine.answers_of_apply (o := .ok result) happly
      obtain rfl := answers_eq (hcacheable term rfl) hanswers
      obtain ⟨rfl, rfl⟩ := Eval.lift_injective hread
      exact ⟨.answered hanswers, rfl⟩

/-- Within the limits of the mode, the operation comes to the outcome: that is what it computes, and
what running it gives. Where there is no budget, running it may be cut off instead. The engine stays as
it is. -/
structure Concludes (mode : Mode) (operation : Eval Engine α) (computes : Outcome α → Prop)
    (o : Outcome α) : Prop where
  computes_iff : ∀ o', computes o' ↔ o' = o
  run : mode.budget? ≠ none → operation { mode } = Eval.lift o { mode }
  of_run : ∀ o' engine', operation { mode } = Eval.lift o' engine' → o' = o ∧ engine' = { mode }

theorem Computes.concludes {o : Outcome α} (h : Computes mode entry read input o)
    (hcacheable : ∀ term, input = .ok term → Call.Cacheable (.apply entry [] term)) :
    Concludes mode (compute entry read input) (Computes mode entry read input) o := by
  refine ⟨fun o' => ⟨fun h' => h'.unique h, fun heq => heq ▸ h⟩, h.run, fun o' engine' hrun => ?_⟩
  obtain ⟨h', rfl⟩ := computes_of_run hcacheable hrun
  exact ⟨h'.unique h, rfl⟩

/-- What the rule comes to is what the operation comes to, as it is read. -/
theorem exists_concludes {rule : Rule} {outcome : Outcome Term} {o : Outcome α} {cost : Cost}
    (hinput : input = .ok term) (hbuild : entry.build [] = .ok rule)
    (hcacheable : Call.Cacheable (.apply entry [] term))
    (hends : rule.EndsAs ∅ mode term outcome cost) (hread : (outcome >>= read) = o)
    (ho : o.hitLimit = false) :
    ∃ o', Concludes mode (compute entry read input) (Computes mode entry read input) o' ∧
      (o' = o ∨ o'.hitLimit = true) ∧
      (o' = o ↔ cost.depth ≤ mode.maxDepth ∧ ∀ budget ∈ mode.budget?, cost.steps ≤ budget) := by
  obtain ⟨answer, session, hends, hor, hiff⟩ := hends
  have hanswers : Engine.Answers { mode } (.apply entry [] term) answer _ :=
    .apply hbuild ⟨session, hends, rfl⟩
  rw [answers_eq hcacheable hanswers] at hanswers
  subst hinput
  refine ⟨answer >>= read, (Computes.answered hanswers).concludes ?_, ?_⟩
  · rintro _ ⟨⟩
    exact hcacheable
  · rcases hor with rfl | hlimit
    · exact ⟨.inl hread, iff_of_true hread (hiff.1 rfl)⟩
    · cases answer with
      | ok result => cases hlimit
      | error failure =>
        have hother (heq : .error failure = o) : False :=
          Bool.false_ne_true (ho.symm.trans (heq ▸ hlimit))
        exact ⟨.inr hlimit, iff_of_false hother fun hfits => hother (hread ▸ hiff.2 hfits ▸ rfl)⟩

/-! ## Operands and results -/

/-- The operands of a rule, if both fit. -/
def operands (a b : UInt64) : Except Failure Term := do
  return .seq [← operand a, ← operand b]

theorem count_toNat {n : UInt64} (h : n.toNat < 2 ^ 63) : Term.count n.toNat = .int n.toInt64 := by
  rw [Term.count_of_lt h, ← UInt64.toInt64_ofNat', UInt64.ofNat_toNat]

theorem operand_eq {n : UInt64} (h : n.toNat < 2 ^ 63) : operand n = .ok (.count n.toNat) := by
  have hlargest : n.toNat ≤ Int64.maxValue.toInt.toNat := Nat.le_of_lt_succ h
  rw [operand, if_pos hlargest, count_toNat h]

theorem operands_eq {a b : UInt64} (ha : a.toNat < 2 ^ 63) (hb : b.toNat < 2 ^ 63) :
    operands a b = .ok (.seq [.count a.toNat, .count b.toNat]) := by
  rw [operands, operand_eq ha, operand_eq hb]
  rfl

theorem cacheable_counts (entry : LibraryRule) (m n : Nat) (hentry : entry ≠ .uppercaseKeys) :
    Call.Cacheable (.apply entry [] (.seq [.count m, .count n])) := by
  refine ⟨hentry, List.forall_mem_nil _, ?_⟩
  simp [Term.count, Term.int]

theorem natural_count {n : Nat} (h : n < 2 ^ 63) : natural (.count n) = .ok (.ofNat n) := by
  have hpos : 0 ≤ (Int64.ofNat n).toInt := by
    rw [Int64.toInt_ofNat_of_lt h]
    exact Int.natCast_nonneg n
  rw [Term.count_of_lt h, Term.int, natural, if_pos hpos, Int64.toUInt64_ofNat']

/-- To apply a rule to two operands and read the result is to compute. -/
theorem applyPair_bind (entry : LibraryRule) (read : Term → Except Failure α) (a b : UInt64) :
    (applyPair entry a b >>= fun result => Eval.lift (read result)) =
      compute entry read (operands a b) := by
  unfold applyPair compute operands
  cases operand a with
  | error failure => rfl
  | ok x =>
    cases operand b with
    | error failure => rfl
    | ok y => rfl

end Reshape.Arithmetic
