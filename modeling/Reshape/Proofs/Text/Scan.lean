import Reshape.Proofs.Text.Occurrence

/-!
# Replacing from left to right

A scan goes over a text character by character. Where the literal starts, the replacement is emitted
and the literal skipped; any other character is copied. What was emitted is not looked at again.

Up to the leftmost occurrence of the literal a scan copies, and after it goes on with what follows
(`scan_of_aroundFirst?`); without an occurrence it copies everything (`scan_of_not_occurs`).
-/

namespace Reshape.Text

/-- What a scan emits, and how many times it emits the replacement. -/
structure Scan where
  emitted : List Char
  count : Nat
  deriving DecidableEq, Repr

/-- Scans characters after `skip` of them. -/
def scanFrom (literal replacement : List Char) : (skip : Nat) → List Char → Scan
  | _, [] => ⟨[], 0⟩
  | skip + 1, _ :: chars => scanFrom literal replacement skip chars
  | 0, c :: chars =>
    if literal.isPrefixOf (c :: chars) then
      let rest := scanFrom literal replacement (literal.length - 1) chars
      ⟨replacement ++ rest.emitted, rest.count + 1⟩
    else
      let rest := scanFrom literal replacement 0 chars
      ⟨c :: rest.emitted, rest.count⟩
termination_by structural _ chars => chars

/-- Scans a text for a literal. -/
def scan (literal replacement text : String) : Scan :=
  scanFrom literal.toList replacement.toList 0 text.toList

section

variable {literal replacement before after : List Char}

theorem scanFrom_skip (skip : Nat) (chars : List Char) :
    scanFrom literal replacement skip chars = scanFrom literal replacement 0 (chars.drop skip) := by
  induction chars generalizing skip with
  | nil =>
    rw [List.drop_nil]
    cases skip <;> rfl
  | cons c chars ih =>
    cases skip with
    | zero => rfl
    | succ skip =>
      rw [scanFrom, ih, List.drop_succ_cons]

/-- An occurrence is replaced as a whole. -/
theorem scanFrom_literal (hliteral : literal ≠ []) (after : List Char) :
    scanFrom literal replacement 0 (literal ++ after) =
      ⟨replacement ++ (scanFrom literal replacement 0 after).emitted,
        (scanFrom literal replacement 0 after).count + 1⟩ := by
  obtain ⟨c, chars, rfl⟩ := List.exists_cons_of_ne_nil hliteral
  have hstarts : (c :: chars).isPrefixOf (c :: (chars ++ after)) = true :=
    List.isPrefixOf_iff_prefix.2 (List.prefix_append (c :: chars) after)
  rw [List.cons_append, scanFrom, if_pos hstarts, scanFrom_skip]
  dsimp only
  rw [List.length_cons, Nat.add_sub_cancel, List.drop_left]

/-- Where the literal does not start, characters are copied. -/
theorem scanFrom_before (h : ∀ m < before.length, ¬ literal <+: (before ++ after).drop m) :
    scanFrom literal replacement 0 (before ++ after) =
      ⟨before ++ (scanFrom literal replacement 0 after).emitted,
        (scanFrom literal replacement 0 after).count⟩ := by
  induction before with
  | nil => rfl
  | cons c before ih =>
    have hhere : ¬ literal.isPrefixOf (c :: (before ++ after)) = true := fun hstarts =>
      h 0 (Nat.succ_pos _) (List.isPrefixOf_iff_prefix.1 hstarts)
    have hlater := ih fun m hm => h (m + 1) (Nat.succ_lt_succ hm)
    rw [List.cons_append, scanFrom, if_neg hhere, hlater]
    rfl

end

variable {literal replacement text before after : String}

/-- Up to the leftmost occurrence everything is copied. There the replacement is emitted, and what
follows is scanned. -/
theorem scan_of_aroundFirst? (hliteral : literal ≠ "")
    (h : aroundFirst? literal text = some (before, after)) :
    scan literal replacement text =
      ⟨before.toList ++ (replacement.toList ++ (scan literal replacement after).emitted),
        (scan literal replacement after).count + 1⟩ := by
  obtain ⟨rfl, hleast⟩ := aroundFirst?_eq_some_iff.1 h
  rw [String.append_assoc, String.toList_append, String.toList_append, ← String.length_toList]
    at hleast
  have hne : literal.toList ≠ [] := fun hnil => hliteral (String.toList_eq_nil_iff.1 hnil)
  rw [scan, String.append_assoc, String.toList_append, String.toList_append, scanFrom_before hleast,
    scanFrom_literal hne]
  rfl

/-- A text without an occurrence is copied. -/
theorem scan_of_not_occurs (h : aroundFirst? literal text = none) :
    scan literal replacement text = ⟨text.toList, 0⟩ := by
  have hnowhere : ∀ m < text.toList.length, ¬ literal.toList <+: (text.toList ++ []).drop m := by
    rintro m - ⟨rest, hrest⟩
    rw [List.append_nil] at hrest
    have hparts : .ofList (text.toList.take m) ++ literal ++ .ofList rest = text := by
      rw [← String.toList_inj]
      simp [hrest]
    obtain ⟨first, between, hfound, -⟩ := exists_aroundFirst? hparts
    cases h.symm.trans hfound
  have hcopied : scanFrom literal.toList replacement.toList 0 (text.toList ++ []) = _ :=
    scanFrom_before hnowhere
  rw [List.append_nil] at hcopied
  rw [scan, hcopied, scanFrom, List.append_nil]

end Reshape.Text
