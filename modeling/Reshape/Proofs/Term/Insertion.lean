import Reshape.Proofs.Term.Fields
import Reshape.Term.Equality

/-!
# Composites as maps in the order of insertion

What a composite holds after any number of insertions can be read off the entries that were put in:
the order of the keys, and the field under each of them. Composites are equal exactly if the same is
found under every key (`Composite.beq_composite_iff`), so the order of insertions does not matter to
equality, as far as it does not decide which entry of a key is the last one
(`Composite.insertion_ordered`).
-/

namespace Reshape.Composite

variable {xs ys : Composite} {key : String}

/-- What the comparison asks: each field of the first composite has an equal one under its key. -/
theorem beqEntries_iff_get? {entries : List (Entry Term)} :
    Term.beqEntries entries ys = true ↔
      ∀ x ∈ entries, ∃ y, ys.get? x.key = some y ∧ (x.value == y.value) = true ∧
        x.modifiers = y.modifiers := by
  induction entries with
  | nil => simp [Term.beqEntries]
  | cons x rest ih =>
    rw [Term.beqEntries, Bool.and_eq_true, ih, List.forall_mem_cons]
    refine and_congr_left fun _ => ?_
    cases hget : ys.get? x.key with
    | none => simp
    | some y =>
      rw [Bool.and_eq_true, beq_iff_eq]
      simp only [Option.some.injEq, exists_eq_left']
      rfl

/-- Distinct keys of another composite that is no longer are all of its keys. -/
theorem Distinct.keys_perm (h : xs.Distinct) (hsubset : xs.keys ⊆ ys.keys)
    (hlength : ys.length ≤ xs.length) : xs.keys.Perm ys.keys := by
  refine (List.subperm_of_subset h hsubset).perm_of_length_le ?_
  rwa [keys, keys, List.length_map, List.length_map]

/-- Composites with distinct keys are equal exactly if under every key there is nothing in both or an
equal field in both. -/
theorem beq_composite_iff (hxs : xs.Distinct) (hys : ys.Distinct) :
    (Term.composite xs == .composite ys) = true ↔
      ∀ key, Option.Rel (Entry.Alike fun a b => (a == b) = true) (xs.get? key) (ys.get? key) := by
  show (xs.length == ys.length && Term.beqEntries xs ys) = true ↔ _
  rw [Bool.and_eq_true, beq_iff_eq, beqEntries_iff_get?]
  constructor
  · rintro ⟨hlength, hfound⟩ key
    cases hget : xs.get? key with
    | some x =>
      obtain ⟨hmem, rfl⟩ := mem_of_get? hget
      obtain ⟨y, hy, hvalue, hmodifiers⟩ := hfound x hmem
      rw [hy]
      exact .some ⟨(mem_of_get? hy).2.symm, hvalue, hmodifiers⟩
    | none =>
      -- The comparison never asks for this key, but it leaves no room for another field.
      have hsubset : xs.keys ⊆ ys.keys := by
        intro other hother
        obtain ⟨x, hmem, rfl⟩ := List.mem_map.1 hother
        obtain ⟨y, hy, -⟩ := hfound x hmem
        exact mem_keys_iff.2 ⟨y, hy⟩
      have hperm := hxs.keys_perm hsubset (Nat.le_of_eq hlength.symm)
      rw [get?_eq_none_iff.2 (mt hperm.mem_iff.2 (get?_eq_none_iff.1 hget))]
      exact .none
  · intro hsame
    have hsubset : xs.keys ⊆ ys.keys := by
      intro key hkey
      obtain ⟨x, hx⟩ := mem_keys_iff.1 hkey
      obtain ⟨y, hy, -⟩ := exists_of_rel_left (hsame key) hx
      exact mem_keys_iff.2 ⟨y, hy⟩
    have hsuperset : ys.keys ⊆ xs.keys := by
      intro key hkey
      obtain ⟨y, hy⟩ := mem_keys_iff.1 hkey
      obtain ⟨x, hx, -⟩ := exists_of_rel_right (hsame key) hy
      exact mem_keys_iff.2 ⟨x, hx⟩
    have hperm : xs.keys.Perm ys.keys :=
      (List.subperm_of_subset hxs hsubset).antisymm (List.subperm_of_subset hys hsuperset)
    refine ⟨by simpa [keys] using hperm.length_eq, fun x hx => ?_⟩
    have hget := hxs.get?_eq_some_iff.2 ⟨hx, rfl⟩
    obtain ⟨y, hy, halike⟩ := exists_of_rel_left (hsame x.key) hget
    exact ⟨y, hy, halike.value, halike.modifiers⟩

/-- Entries put in one after another, in one go or in several. The keys are distinct and stand in the
order in which they first came, under a key stands the last entry that was put in under it, and
composites put together from any entries are equal exactly if the same is found in both under every
key. -/
theorem insertion_ordered (entries more entries' : List (Entry Term)) :
    insertAll (ofList entries) more = ofList (entries ++ more) ∧
      (ofList entries).keys.Nodup ∧
      (ofList entries).keys = (entries.map (·.key)).eraseDups ∧
      (∀ key, (ofList entries).get? key = entries.reverse.find? (·.key == key)) ∧
      (∀ key, (ofList entries).get? key = none ↔ ∀ entry ∈ entries, entry.key ≠ key) ∧
      ((Term.composite (ofList entries) == .composite (ofList entries')) = true ↔
        ∀ key, Option.Rel (Entry.Alike fun a b => (a == b) = true)
          ((ofList entries).get? key) ((ofList entries').get? key)) := by
  refine ⟨insertAll_ofList entries more, distinct_ofList entries, keys_ofList entries,
    get?_ofList entries, fun key => ?_,
    beq_composite_iff (distinct_ofList entries) (distinct_ofList entries')⟩
  rw [get?_ofList, List.find?_eq_none]
  simp only [List.mem_reverse, beq_iff_eq, ne_eq]

example : (Term.composite (ofList [⟨"a", .int 1, {}⟩, ⟨"b", .int 2, {}⟩, ⟨"a", .int 3, {}⟩]) ==
    .composite (ofList [⟨"b", .int 2, {}⟩, ⟨"a", .int 3, {}⟩])) = true := by decide +kernel

end Reshape.Composite
