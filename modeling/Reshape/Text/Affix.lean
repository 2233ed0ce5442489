/-!
# Cutting a text at a literal

Three ways to take a literal off a text: at its start, at its end, or at its
leftmost occurrence. The empty literal stands at every place, so it is found at
the very start. In each case the parts put together again give the text
(`afterStart?_eq_some_iff`, `beforeEnd?_eq_some_iff`, `aroundFirst?_eq_some_iff`),
and no occurrence starts before the leftmost one.
-/

namespace Reshape.Text

/-- What follows the literal, if the text starts with it. -/
def afterStart? (literal text : String) : Option String :=
  if text.startsWith literal then some (text.drop literal.length).copy else none

/-- What precedes the literal, if the text ends with it. -/
def beforeEnd? (literal text : String) : Option String :=
  if text.endsWith literal then some (text.dropEnd literal.length).copy else none

theorem afterStart?_eq_some_iff {literal text after : String} :
    afterStart? literal text = some after ↔ literal ++ after = text := by
  unfold afterStart?
  split
  · next h =>
    obtain ⟨rest, hrest⟩ := String.startsWith_string_iff.1 h
    simp [← String.toList_inj, ← hrest, ← String.length_toList, eq_comm]
  · next h =>
    simp only [reduceCtorEq, false_iff]
    rintro rfl
    simp at h

theorem beforeEnd?_eq_some_iff {literal text before : String} :
    beforeEnd? literal text = some before ↔ before ++ literal = text := by
  unfold beforeEnd?
  rw [← String.endsWith_toSlice]
  split
  · next h =>
    obtain ⟨rest, hrest⟩ := String.Slice.endsWith_string_iff.1 h
    rw [String.copy_toSlice] at hrest
    simp [← String.toList_inj, ← hrest, ← String.length_toList, eq_comm]
  · next h =>
    simp only [reduceCtorEq, false_iff]
    rintro rfl
    exact h (String.Slice.endsWith_string_iff.2 (by simp))

/-- How many characters precede the leftmost occurrence of the literal in a text
of at most `length` characters. -/
def offset? (literal : String) : (length : Nat) → String.Slice → Option Nat
  | 0, text => if text.startsWith literal then some 0 else none
  | length + 1, text =>
    if text.startsWith literal then some 0
    else (offset? literal length (text.drop 1)).map (· + 1)

theorem offset?_eq_some_iff {literal : String} {length : Nat} {text : String.Slice} {n : Nat}
    (h : text.copy.toList.length ≤ length) :
    offset? literal length text = some n ↔
      n ≤ text.copy.toList.length ∧ literal.toList <+: text.copy.toList.drop n ∧
        ∀ m < n, ¬ literal.toList <+: text.copy.toList.drop m := by
  induction length generalizing text n with
  | zero =>
    have hstart := @String.Slice.startsWith_string_iff literal text
    rw [List.eq_nil_of_length_eq_zero (Nat.le_zero.1 h)] at hstart ⊢
    by_cases hs : text.startsWith literal
    · simp only [hs, true_iff] at hstart
      cases n <;> simp_all [offset?]
    · simp only [hs, Bool.false_eq_true, false_iff] at hstart
      simp_all [offset?]
  | succ length ih =>
    have hstart := @String.Slice.startsWith_string_iff literal text
    have hdrop : (text.drop 1).copy.toList = text.copy.toList.drop 1 := by simp
    have hlen : (text.drop 1).copy.toList.length ≤ length := by
      rw [hdrop, List.length_drop]
      omega
    have ih (n) := @ih (text.drop 1) n hlen
    rw [hdrop] at ih
    generalize text.copy.toList = chars at hstart ih
    by_cases hs : text.startsWith literal
    · simp only [hs, true_iff] at hstart
      cases n with
      | zero => simp [offset?, hs, hstart]
      | succ n =>
        simp only [offset?, hs, if_true, Option.some.injEq, Nat.right_eq_add, reduceCtorEq,
          false_iff]
        exact fun hn => hn.2.2 0 (Nat.succ_pos n) hstart
    · simp only [hs, Bool.false_eq_true, false_iff] at hstart
      simp only [offset?, hs, Bool.false_eq_true, if_false, Option.map_eq_some_iff, ih]
      cases n with
      | zero => simp [hstart]
      | succ n =>
        cases chars with
        | nil => simp_all
        | cons c chars =>
          have hleast : (∀ m < n + 1, ¬ literal.toList <+: (c :: chars).drop m) ↔
              ∀ m < n, ¬ literal.toList <+: chars.drop m :=
            ⟨fun hm m hlt => hm (m + 1) (Nat.succ_lt_succ hlt), fun hm m hlt => by
              cases m with
              | zero => exact hstart
              | succ m => exact hm m (Nat.lt_of_succ_lt_succ hlt)⟩
          rw [hleast]
          simp

/-- What precedes and what follows the leftmost occurrence of the literal. -/
def aroundFirst? (literal text : String) : Option (String × String) :=
  (offset? literal text.length text.toSlice).map fun n =>
    ((text.take n).copy, (text.drop (n + literal.length)).copy)

theorem aroundFirst?_eq_some_iff {literal text before after : String} :
    aroundFirst? literal text = some (before, after) ↔
      before ++ literal ++ after = text ∧
        ∀ m < before.length, ¬ literal.toList <+: text.toList.drop m := by
  have hoff (n) : offset? literal text.length text.toSlice = some n ↔ _ :=
    offset?_eq_some_iff (by simp [String.length_toList])
  simp only [aroundFirst?, Option.map_eq_some_iff, hoff, String.copy_toSlice, Prod.mk.injEq]
  constructor
  · rintro ⟨n, ⟨hn, ⟨rest, hrest⟩, hmin⟩, rfl, rfl⟩
    have hlen : (text.take n).copy.length = n := by
      rw [← String.length_toList, String.toList_copy_take, List.length_take]
      omega
    refine ⟨?_, hlen.symm ▸ hmin⟩
    have hafter : text.toList.drop (n + literal.length) = rest := by
      rw [← List.drop_drop, ← hrest, ← String.length_toList, List.drop_left]
    rw [← String.toList_inj]
    simp [hafter, hrest]
  · rintro ⟨rfl, hmin⟩
    refine ⟨before.length, ⟨by simp [← String.length_toList], ?_, hmin⟩, ?_, ?_⟩
    · simp [← String.length_toList]
    · rw [← String.toList_inj]
      simp [← String.length_toList]
    · rw [← String.toList_inj]
      simp [← String.length_toList]

end Reshape.Text
