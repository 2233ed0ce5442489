import Reshape.Term.Basic

/-!
# Sizes of terms and their parts

Every node counts, so a part is smaller than the term (`Term.size_lt_of_mem_children`), and what is
left of a list without some of its items is smaller by at least one for each of them
(`Term.sizeAll_add_length_le`).
-/

namespace Reshape.Term

variable {items kept : List Term} {term part : Term}

theorem size_pos (term : Term) : 0 < term.size := by
  cases term <;> simp only [size] <;> omega

theorem sizeAll_append (xs ys : List Term) : sizeAll (xs ++ ys) = sizeAll xs + sizeAll ys := by
  induction xs with
  | nil => rw [List.nil_append, sizeAll, Nat.zero_add]
  | cons x xs ih => rw [List.cons_append, sizeAll, sizeAll, ih, Nat.add_assoc]

theorem sizeEntries_eq (entries : List (Entry Term)) :
    sizeEntries entries = sizeAll (entries.map (·.value)) := by
  induction entries with
  | nil => rfl
  | cons entry rest ih => rw [sizeEntries, ih, List.map_cons, sizeAll]

/-- Each item that is left out counts for at least one. -/
theorem sizeAll_add_length_le (h : kept.Sublist items) :
    sizeAll kept + items.length ≤ sizeAll items + kept.length := by
  induction h with
  | slnil => exact Nat.le_refl _
  | cons item _ ih =>
    have hpos := item.size_pos
    rw [sizeAll, List.length_cons]
    omega
  | cons_cons item _ ih =>
    rw [sizeAll, sizeAll, List.length_cons, List.length_cons]
    omega

theorem sizeAll_le_of_sublist (h : kept.Sublist items) : sizeAll kept ≤ sizeAll items := by
  have hsizes := sizeAll_add_length_le h
  have hlength := h.length_le
  omega

/-- The parts of a term are what is in it besides its own node, or the characters of a text. -/
theorem sizeAll_children_lt (term : Term) : sizeAll term.children < term.size := by
  cases term with
  | seq items | apply head items =>
    rw [children, size]
    omega
  | text s | atom value | ref name => exact size_pos _
  | composite entries =>
    rw [children, size, sizeEntries_eq]
    omega
  | function k receiver params result =>
    have hreceiver : sizeOption receiver = sizeAll receiver.toList := by
      cases receiver <;> rfl
    have hresult : sizeAll [result] = result.size := rfl
    rw [children, size, sizeAll_append, sizeAll_append, hreceiver, hresult]
    omega

/-- A part is smaller than the term. -/
theorem size_lt_of_mem_children (h : part ∈ term.children) : part.size < term.size := by
  have hpart : part.size ≤ sizeAll term.children :=
    sizeAll_le_of_sublist (List.singleton_sublist.2 h)
  have hchildren := term.sizeAll_children_lt
  omega

end Reshape.Term
