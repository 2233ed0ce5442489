import Reshape.Proofs.Term.Normal

/-!
# References inside terms

A name is referred to in a term if it is referred to in a part of it. The order of fields does
not matter, so a term and its normal form refer to the same names (`Term.mem_refs_normal`).
-/

namespace Reshape.Term

variable {name : String} {items args params : List Term} {entries : List (Entry Term)}
  {receiver : Option Term} {result : Term}

theorem mem_refsAll : name ∈ refsAll items ↔ ∃ item ∈ items, name ∈ item.refs := by
  induction items with
  | nil => simp [refsAll]
  | cons item rest ih => simp [refsAll, ih]

theorem mem_refsEntries : name ∈ refsEntries entries ↔ ∃ entry ∈ entries, name ∈ entry.value.refs := by
  induction entries with
  | nil => simp [refsEntries]
  | cons entry rest ih =>
    obtain ⟨key, value, modifiers⟩ := entry
    simp [refsEntries, ih]

theorem mem_refsOption : name ∈ refsOption receiver ↔ ∃ term ∈ receiver, name ∈ term.refs := by
  cases receiver <;> simp [refsOption]

@[simp] theorem mem_refs_seq : name ∈ (Term.seq items).refs ↔ ∃ item ∈ items, name ∈ item.refs :=
  mem_refsAll

@[simp] theorem refs_text (s : String) : (Term.text s).refs = [] := rfl

@[simp] theorem mem_refs_composite :
    name ∈ (Term.composite entries).refs ↔ ∃ entry ∈ entries, name ∈ entry.value.refs :=
  mem_refsEntries

@[simp] theorem refs_atom (value : Atom) : (Term.atom value).refs = [] := rfl

@[simp] theorem mem_refs_apply {head : String} :
    name ∈ (Term.apply head args).refs ↔ ∃ arg ∈ args, name ∈ arg.refs :=
  mem_refsAll

@[simp] theorem mem_refs_function {kind : SignatureKind} :
    name ∈ (Term.function kind receiver params result).refs ↔
      (∃ term ∈ receiver, name ∈ term.refs) ∨ (∃ param ∈ params, name ∈ param.refs) ∨
        name ∈ result.refs := by
  rw [refs, List.mem_append, List.mem_append, mem_refsOption, mem_refsAll, or_assoc]

@[simp] theorem mem_refs_ref {other : String} : name ∈ (Term.ref other).refs ↔ name = other :=
  List.mem_singleton

/-- What a term that is no reference refers to is what its parts refer to. -/
theorem mem_refs_iff_children {x : Term} (hx : x.kind ≠ .ref) :
    name ∈ x.refs ↔ ∃ part ∈ x.children, name ∈ part.refs := by
  cases x with
  | seq xs => exact mem_refs_seq
  | composite xs =>
    rw [mem_refs_composite, children]
    simp only [List.mem_map, exists_exists_and_eq_and]
  | apply f xs => exact mem_refs_apply
  | function k r ps t =>
    rw [mem_refs_function, children]
    simp [or_and_right, exists_or]
  | ref other => exact absurd rfl hx
  | text s | atom value => simp [children]

/-- A reference has no parts. -/
theorem kind_ne_ref_of_mem_children {x part : Term} (h : part ∈ x.children) : x.kind ≠ .ref := by
  cases x with
  | ref other => cases h
  | _ => exact nofun

theorem mem_refs_of_mem_children {x part : Term} (h : part ∈ x.children) (hname : name ∈ part.refs) :
    name ∈ x.refs :=
  (mem_refs_iff_children (kind_ne_ref_of_mem_children h)).2 ⟨part, h, hname⟩

theorem exists_mem_map_normal {xs : List Term} (h : ∀ x ∈ xs, name ∈ x.normal.refs ↔ name ∈ x.refs) :
    (∃ y ∈ xs.map normal, name ∈ y.refs) ↔ ∃ x ∈ xs, name ∈ x.refs := by
  simp only [List.mem_map, exists_exists_and_eq_and]
  exact exists_congr fun x => and_congr_right (h x)

/-- The normal form refers to the same names. -/
@[simp] theorem mem_refs_normal (x : Term) : name ∈ x.normal.refs ↔ name ∈ x.refs := by
  induction x with
  | seq xs ih =>
    rw [normal_seq, mem_refs_seq, mem_refs_seq]
    exact exists_mem_map_normal ih
  | text s => rfl
  | composite xs ih =>
    rw [normal_composite, mem_refs_composite, mem_refs_composite]
    simp only [(Composite.normal_perm xs).mem_iff, List.mem_map, exists_exists_and_eq_and,
      Entry.normal_value]
    exact exists_congr fun x => and_congr_right (ih x)
  | atom a => rfl
  | apply f xs ih =>
    rw [normal_apply, mem_refs_apply, mem_refs_apply]
    exact exists_mem_map_normal ih
  | function k r ps t ihr ihps iht =>
    rw [normal_function, mem_refs_function, mem_refs_function, iht, exists_mem_map_normal ihps]
    refine or_congr_left ?_
    cases r with
    | none => rfl
    | some s => simpa using ihr s rfl
  | ref a => rfl

end Reshape.Term
