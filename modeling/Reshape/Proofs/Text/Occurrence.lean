import Reshape.Text.Affix
import Mathlib.Data.Nat.Find

/-!
# The leftmost occurrence of a literal

A literal that stands anywhere in a text has a leftmost occurrence, and what follows the leftmost
occurrence ends with what follows any other (`exists_aroundFirst?`). So nothing that is needed further
on is lost by stopping there. A single character does not occur before its leftmost occurrence
(`not_mem_of_aroundFirst?_eq_some`).
-/

namespace Reshape.Text

/-- Of two texts at the end of another, the shorter is at the end of the longer. -/
theorem exists_append_of_length_le {before before' after after' : String}
    (h : before ++ after = before' ++ after') (hle : after.length ≤ after'.length) :
    ∃ between, after' = between ++ after := by
  have hchars : before.toList ++ after.toList = before'.toList ++ after'.toList := by
    rw [← String.toList_append, h, String.toList_append]
  have hsuffix : after.toList <:+ before'.toList ++ after'.toList := ⟨before.toList, hchars⟩
  rw [← String.length_toList, ← String.length_toList] at hle
  obtain ⟨between, hbetween⟩ :=
    List.suffix_of_suffix_length_le hsuffix (List.suffix_append _ _) hle
  refine ⟨.ofList between, ?_⟩
  rw [← String.toList_inj, String.toList_append, String.toList_ofList, hbetween]

/-- A literal that occurs is found, at no later place. -/
theorem exists_aroundFirst? {literal text before after : String}
    (h : before ++ literal ++ after = text) :
    ∃ first between, aroundFirst? literal text = some (first, between ++ after) ∧
      first.length ≤ before.length := by
  classical
  have hlength : before.length + literal.length + after.length = text.length := by
    rw [← h, String.length_append, String.length_append]
  have hhere : literal.toList <+: text.toList.drop before.length := by
    refine ⟨after.toList, ?_⟩
    rw [← h, String.append_assoc, String.toList_append, ← String.length_toList, List.drop_left,
      String.toList_append]
  obtain ⟨n, ⟨rest, hrest⟩, hleast, hle⟩ : ∃ n, literal.toList <+: text.toList.drop n ∧
      (∀ m < n, ¬ literal.toList <+: text.toList.drop m) ∧ n ≤ before.length :=
    have hoccurs : ∃ n, literal.toList <+: text.toList.drop n := ⟨_, hhere⟩
    ⟨Nat.find hoccurs, Nat.find_spec hoccurs, fun _ => Nat.find_min hoccurs,
      Nat.find_min' hoccurs hhere⟩
  have hfirst : (String.ofList (text.toList.take n)).length = n := by
    rw [← String.length_toList, String.toList_ofList, List.length_take, String.length_toList]
    omega
  have htext : .ofList (text.toList.take n) ++ literal ++ .ofList rest = text := by
    rw [← String.toList_inj]
    simp [hrest]
  have hfound : aroundFirst? literal text = some (.ofList (text.toList.take n), .ofList rest) :=
    aroundFirst?_eq_some_iff.2 ⟨htext, by rwa [hfirst]⟩
  have hlonger : after.length ≤ (String.ofList rest).length := by
    have hsame := congrArg String.length htext
    rw [String.length_append, String.length_append, hfirst] at hsame
    omega
  obtain ⟨between, hbetween⟩ := exists_append_of_length_le (h.trans htext.symm) hlonger
  rw [hbetween] at hfound
  exact ⟨_, between, hfound, hfirst.symm ▸ hle⟩

theorem length_lt_of_aroundFirst? {literal text before after : String} (hliteral : literal ≠ "")
    (h : aroundFirst? literal text = some (before, after)) : after.length < text.length := by
  have hpos : 0 < literal.length := by
    rw [← String.length_toList, List.length_pos_iff, ne_eq, String.toList_eq_nil_iff]
    exact hliteral
  rw [← (aroundFirst?_eq_some_iff.1 h).1, String.length_append, String.length_append]
  omega

/-! ## A single character -/

section

variable {c : Char} {text before after : String}

theorem not_mem_of_aroundFirst?_eq_none (h : aroundFirst? (.singleton c) text = none) :
    c ∉ text.toList := by
  intro hmem
  obtain ⟨chars, others, hchars⟩ := List.append_of_mem hmem
  have htext : .ofList chars ++ .singleton c ++ .ofList others = text := by
    rw [← String.toList_inj, hchars]
    simp
  obtain ⟨first, between, hfound, -⟩ := exists_aroundFirst? htext
  cases h.symm.trans hfound

theorem not_mem_of_aroundFirst?_eq_some (h : aroundFirst? (.singleton c) text = some (before, after)) :
    c ∉ before.toList := by
  intro hmem
  obtain ⟨chars, others, hchars⟩ := List.append_of_mem hmem
  obtain ⟨htext, hleast⟩ := aroundFirst?_eq_some_iff.1 h
  have hearlier : chars.length < before.length := by
    rw [← String.length_toList, hchars, List.length_append, List.length_cons]
    omega
  have hdrop : text.toList.drop chars.length = c :: (others ++ c :: after.toList) := by
    rw [← htext]
    simp [hchars]
  exact hleast _ hearlier (by simp [hdrop])

end

end Reshape.Text
