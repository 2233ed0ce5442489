import Reshape.Proofs.Term.Induction
import Reshape.Proofs.Term.Insertion

/-!
# Normal forms of terms

Terms are equal up to the order of fields. In the normal form of a term the fields of
every composite are in the order of their keys. Terms whose composites have distinct keys
(`Term.WellKeyed`), as composites that are put together by `Composite.insert` have, are
equal exactly if they have one normal form (`Term.beq_iff`).
-/

namespace Reshape

namespace Term

mutual

/-- No composite in the term has a key twice. -/
def WellKeyed : Term → Prop
  | .seq items => WellKeyedAll items
  | .text _ => True
  | .composite entries => Composite.Distinct entries ∧ WellKeyedEntries entries
  | .atom _ => True
  | .apply _ args => WellKeyedAll args
  | .function _ receiver params result =>
    WellKeyedOption receiver ∧ WellKeyedAll params ∧ WellKeyed result
  | .ref _ => True
termination_by structural term => term

def WellKeyedAll : List Term → Prop
  | [] => True
  | item :: rest => WellKeyed item ∧ WellKeyedAll rest
termination_by structural items => items

def WellKeyedEntries : List (Entry Term) → Prop
  | [] => True
  | ⟨_, value, _⟩ :: rest => WellKeyed value ∧ WellKeyedEntries rest
termination_by structural entries => entries

def WellKeyedOption : Option Term → Prop
  | none => True
  | some term => WellKeyed term
termination_by structural term => term

end

mutual

/-- The term with the fields of every composite in the order of their keys. -/
def normal : Term → Term
  | .seq items => .seq (normalAll items)
  | .text s => .text s
  | .composite entries => .composite (Composite.sortByKey (normalEntries entries))
  | .atom value => .atom value
  | .apply head args => .apply head (normalAll args)
  | .function kind receiver params result =>
    .function kind (normalOption receiver) (normalAll params) (normal result)
  | .ref name => .ref name
termination_by structural term => term

def normalAll : List Term → List Term
  | [] => []
  | item :: rest => normal item :: normalAll rest
termination_by structural items => items

def normalEntries : List (Entry Term) → List (Entry Term)
  | [] => []
  | ⟨key, value, modifiers⟩ :: rest => ⟨key, normal value, modifiers⟩ :: normalEntries rest
termination_by structural entries => entries

def normalOption : Option Term → Option Term
  | none => none
  | some term => some (normal term)
termination_by structural term => term

end

end Term

/-- The entry with its value in normal form. -/
def Entry.normal (entry : Entry Term) : Entry Term := { entry with value := entry.value.normal }

@[simp] theorem Entry.normal_key (entry : Entry Term) : entry.normal.key = entry.key := rfl

@[simp] theorem Entry.normal_value (entry : Entry Term) : entry.normal.value = entry.value.normal :=
  rfl

@[simp] theorem Entry.normal_modifiers (entry : Entry Term) :
    entry.normal.modifiers = entry.modifiers := rfl

/-- The entries in normal form, in the order of their keys. -/
def Composite.normal (fields : Composite) : Composite :=
  Composite.sortByKey (fields.map Entry.normal)

namespace Term

variable {items args params : List Term} {entries : Composite} {receiver : Option Term}
  {result x y : Term}

/-! ## Parts -/

theorem wellKeyedAll_iff : WellKeyedAll items ↔ ∀ item ∈ items, item.WellKeyed := by
  induction items with
  | nil => simp [WellKeyedAll]
  | cons item rest ih => simp [WellKeyedAll, ih]

theorem wellKeyedEntries_iff : WellKeyedEntries entries ↔ ∀ entry ∈ entries, entry.value.WellKeyed := by
  induction entries with
  | nil => simp [WellKeyedEntries]
  | cons entry rest ih => simp [WellKeyedEntries, ih]

theorem wellKeyedOption_iff : WellKeyedOption receiver ↔ ∀ term ∈ receiver, term.WellKeyed := by
  cases receiver <;> simp [WellKeyedOption]

theorem normalAll_eq (items : List Term) : normalAll items = items.map normal := by
  induction items with
  | nil => rfl
  | cons item rest ih => rw [normalAll, ih, List.map_cons]

theorem normalEntries_eq (entries : List (Entry Term)) :
    normalEntries entries = entries.map Entry.normal := by
  induction entries with
  | nil => rfl
  | cons entry rest ih =>
    rw [normalEntries, ih, List.map_cons]
    rfl

theorem normalOption_eq (receiver : Option Term) : normalOption receiver = receiver.map normal := by
  cases receiver <;> rfl

@[simp] theorem wellKeyed_seq : (Term.seq items).WellKeyed ↔ ∀ item ∈ items, item.WellKeyed := by
  rw [WellKeyed, wellKeyedAll_iff]

@[simp] theorem wellKeyed_text (s : String) : (Term.text s).WellKeyed := trivial

@[simp] theorem wellKeyed_composite :
    (Term.composite entries).WellKeyed ↔
      entries.Distinct ∧ ∀ entry ∈ entries, entry.value.WellKeyed := by
  rw [WellKeyed, wellKeyedEntries_iff]

@[simp] theorem wellKeyed_atom (value : Atom) : (Term.atom value).WellKeyed := trivial

@[simp] theorem wellKeyed_apply {head : String} :
    (Term.apply head args).WellKeyed ↔ ∀ arg ∈ args, arg.WellKeyed := by
  rw [WellKeyed, wellKeyedAll_iff]

@[simp] theorem wellKeyed_function {kind : SignatureKind} :
    (Term.function kind receiver params result).WellKeyed ↔
      (∀ term ∈ receiver, term.WellKeyed) ∧ (∀ param ∈ params, param.WellKeyed) ∧
        result.WellKeyed := by
  rw [WellKeyed, wellKeyedOption_iff, wellKeyedAll_iff]

@[simp] theorem wellKeyed_ref (name : String) : (Term.ref name).WellKeyed := trivial

theorem WellKeyed.of_mem_children {part : Term} (h : x.WellKeyed) (hpart : part ∈ x.children) :
    part.WellKeyed := by
  cases x with
  | seq xs => exact wellKeyed_seq.1 h part hpart
  | composite xs =>
    obtain ⟨field, hfield, rfl⟩ := List.mem_map.1 hpart
    exact (wellKeyed_composite.1 h).2 field hfield
  | apply f xs => exact wellKeyed_apply.1 h part hpart
  | function k r ps t =>
    obtain ⟨hr, hps, ht⟩ := wellKeyed_function.1 h
    simp only [children, List.mem_append, List.mem_singleton, Option.mem_toList] at hpart
    rcases hpart with (hpart | hpart) | rfl
    · exact hr part hpart
    · exact hps part hpart
    · exact ht
  | text s | atom value | ref name => cases hpart

@[simp] theorem normal_seq : (Term.seq items).normal = .seq (items.map normal) := by
  rw [normal, normalAll_eq]

@[simp] theorem normal_text (s : String) : (Term.text s).normal = .text s := rfl

@[simp] theorem normal_composite :
    (Term.composite entries).normal = .composite (Composite.normal entries) := by
  rw [normal, normalEntries_eq, Composite.normal]

@[simp] theorem normal_atom (value : Atom) : (Term.atom value).normal = .atom value := rfl

@[simp] theorem normal_apply {head : String} :
    (Term.apply head args).normal = .apply head (args.map normal) := by
  rw [normal, normalAll_eq]

@[simp] theorem normal_function {kind : SignatureKind} :
    (Term.function kind receiver params result).normal =
      .function kind (receiver.map normal) (params.map normal) result.normal := by
  rw [normal, normalOption_eq, normalAll_eq]

@[simp] theorem normal_ref (name : String) : (Term.ref name).normal = .ref name := rfl

end Term

namespace Composite

variable {fields : Composite}

theorem normal_perm (fields : Composite) : fields.normal.Perm (fields.map Entry.normal) :=
  sortByKey_perm _

theorem Distinct.map_normal (h : fields.Distinct) : Distinct (fields.map Entry.normal) :=
  h.map Entry.normal_key

theorem Distinct.normal (h : fields.Distinct) : fields.normal.Distinct :=
  h.map_normal.perm fields.normal_perm.symm

/-- What is found in the normal form is the normal form of what is found. -/
theorem Distinct.get?_normal (h : fields.Distinct) (key : String) :
    fields.normal.get? key = (fields.get? key).map Entry.normal := by
  rw [← get?_map Entry.normal_key]
  exact h.normal.get?_perm fields.normal_perm key

end Composite

namespace Term

/-! ## Equality -/

theorem beqAll_iff {xs ys : List Term} (h : ∀ x ∈ xs, ∀ y ∈ ys, x.beq y = true ↔ x.normal = y.normal) :
    beqAll xs ys = true ↔ xs.map normal = ys.map normal := by
  induction xs generalizing ys with
  | nil => cases ys <;> simp [beqAll]
  | cons x xs ih =>
    cases ys with
    | nil => simp [beqAll]
    | cons y ys =>
      have hrest := ih fun x hx y hy => h x (List.mem_cons_of_mem _ hx) y (List.mem_cons_of_mem _ hy)
      rw [beqAll, Bool.and_eq_true, h x List.mem_cons_self y List.mem_cons_self, hrest,
        List.map_cons, List.map_cons, List.cons.injEq]

theorem beqOption_iff {x y : Option Term}
    (h : ∀ s ∈ x, ∀ t ∈ y, s.beq t = true ↔ s.normal = t.normal) :
    beqOption x y = true ↔ x.map normal = y.map normal := by
  match x, y with
  | none, none => simp [beqOption]
  | none, some t => simp [beqOption]
  | some s, none => simp [beqOption]
  | some s, some t => rw [beqOption, h s rfl t rfl, Option.map_some, Option.map_some, Option.some.injEq]

/-- Every field has an equal one under its key exactly if every field has its normal form
among theirs. -/
theorem beqEntries_iff {xs : List (Entry Term)} {ys : Composite} (hys : ys.Distinct)
    (h : ∀ x ∈ xs, ∀ y ∈ ys, x.value.beq y.value = true ↔ x.value.normal = y.value.normal) :
    beqEntries xs ys = true ↔ xs.map Entry.normal ⊆ ys.map Entry.normal := by
  rw [Composite.beqEntries_iff_get?, List.subset_def, List.forall_mem_map]
  refine forall₂_congr fun x hx => ?_
  rw [List.mem_map]
  constructor
  · rintro ⟨y, hget, hvalue, hmodifiers⟩
    obtain ⟨hy, hkey⟩ := hys.get?_eq_some_iff.1 hget
    have hnormal : x.value.normal = y.value.normal := (h x hx y hy).1 hvalue
    exact ⟨y, hy, by rw [Entry.normal, Entry.normal, hnormal, hkey, hmodifiers]⟩
  · rintro ⟨y, hy, heq⟩
    have hkey : y.normal.key = x.normal.key := congrArg Entry.key heq
    have hvalue : x.value.normal = y.value.normal := (congrArg Entry.value heq).symm
    exact ⟨y, hys.get?_eq_some_iff.2 ⟨hy, hkey⟩, (h x hx y hy).2 hvalue,
      (congrArg Entry.modifiers heq).symm⟩

/-- Terms with distinct keys are equal exactly if they have one normal form. -/
theorem beq_iff {x y : Term} (hx : x.WellKeyed) (hy : y.WellKeyed) :
    x.beq y = true ↔ x.normal = y.normal := by
  induction x generalizing y with
  | seq xs ih =>
    cases y with
    | seq ys =>
      rw [wellKeyed_seq] at hx hy
      rw [beq, beqAll_iff fun x hmem y hmem' => ih x hmem (hx x hmem) (hy y hmem'), normal_seq,
        normal_seq, Term.seq.injEq]
    | _ => simp [beq]
  | text s => cases y <;> simp [beq]
  | composite xs ih =>
    cases y with
    | composite ys =>
      rw [wellKeyed_composite] at hx hy
      rw [beq, Bool.and_eq_true, beq_iff_eq,
        beqEntries_iff hy.1 fun x hmem y hmem' => ih x hmem (hx.2 x hmem) (hy.2 y hmem'),
        normal_composite, normal_composite, Term.composite.injEq, Composite.normal, Composite.normal,
        Composite.sortByKey_eq_iff hx.1.map_normal]
      constructor
      · rintro ⟨hlength, hsubset⟩
        refine (hx.1.map_normal.nodup.subperm hsubset).perm_of_length_le (Nat.le_of_eq ?_)
        rw [List.length_map, List.length_map, hlength]
      · intro hperm
        refine ⟨?_, hperm.subset⟩
        simpa using hperm.length_eq
    | _ => simp [beq]
  | atom a => cases y <;> simp [beq]
  | apply f xs ih =>
    cases y with
    | apply g ys =>
      rw [wellKeyed_apply] at hx hy
      rw [beq, Bool.and_eq_true, beq_iff_eq,
        beqAll_iff fun x hmem y hmem' => ih x hmem (hx x hmem) (hy y hmem'), normal_apply,
        normal_apply, Term.apply.injEq]
    | _ => simp [beq]
  | function k r ps t ihr ihps iht =>
    cases y with
    | function k' r' ps' t' =>
      rw [wellKeyed_function] at hx hy
      rw [beq, Bool.and_eq_true, Bool.and_eq_true, Bool.and_eq_true, beq_iff_eq,
        beqOption_iff fun x hmem y hmem' => ihr x hmem (hx.1 x hmem) (hy.1 y hmem'),
        beqAll_iff fun x hmem y hmem' => ihps x hmem (hx.2.1 x hmem) (hy.2.1 y hmem'),
        iht hx.2.2 hy.2.2, normal_function, normal_function, Term.function.injEq, and_assoc, and_assoc]
    | _ => simp [beq]
  | ref a => cases y <;> simp [beq]

/-! ## Normal forms -/

/-- A normal form has distinct keys if the term has. -/
theorem WellKeyed.normal {x : Term} (h : x.WellKeyed) : x.normal.WellKeyed := by
  induction x with
  | seq xs ih => simp_all
  | text s => exact h
  | composite xs ih =>
    rw [wellKeyed_composite] at h
    rw [normal_composite, wellKeyed_composite]
    refine ⟨h.1.normal, fun entry hentry => ?_⟩
    obtain ⟨x, hmem, rfl⟩ := List.mem_map.1 ((Composite.normal_perm xs).mem_iff.1 hentry)
    exact ih x hmem (h.2 x hmem)
  | atom a => exact h
  | apply f xs ih => simp_all
  | function k r ps t ihr ihps iht => simp_all
  | ref a => exact h

@[simp] theorem normal_normal (x : Term) : x.normal.normal = x.normal := by
  induction x with
  | seq xs ih => simpa using ih
  | text s => rfl
  | composite xs ih =>
    have hentries : List.map Entry.normal (Composite.normal xs) = Composite.normal xs := by
      refine (List.map_congr_left fun entry hentry => ?_).trans (List.map_id _)
      obtain ⟨x, hmem, rfl⟩ := List.mem_map.1 ((Composite.normal_perm xs).mem_iff.1 hentry)
      show x.normal.normal = x.normal
      rw [Entry.normal, Entry.normal_value, ih x hmem]
      rfl
    have hsorted : (Composite.normal xs).Pairwise (·.key ≤ ·.key) := Composite.pairwise_sortByKey _
    rw [normal_composite, normal_composite, Composite.normal, hentries,
      Composite.sortByKey_of_pairwise hsorted]
  | atom a => rfl
  | apply f xs ih => simpa using ih
  | function k r ps t ihr ihps iht =>
    have hreceiver : (r.map normal).map normal = r.map normal := by
      cases r with
      | none => rfl
      | some s => rw [Option.map_some, Option.map_some, ihr s rfl]
    simpa [hreceiver, iht] using ihps
  | ref a => rfl

/-- The equality of terms is that of their normal forms. -/
theorem beq_normal {x y : Term} (hx : x.WellKeyed) (hy : y.WellKeyed) :
    (x.normal == y.normal) = (x == y) := by
  rw [Bool.eq_iff_iff]
  show x.normal.beq y.normal = true ↔ x.beq y = true
  rw [beq_iff hx.normal hy.normal, beq_iff hx hy, normal_normal, normal_normal]

@[simp] theorem kind_normal (x : Term) : x.normal.kind = x.kind := by
  cases x <;> rfl

@[simp] theorem length?_normal (x : Term) : x.normal.length? = x.length? := by
  cases x <;> simp [length?]

theorem sizeAll_map_normal {xs : List Term} (h : ∀ x ∈ xs, x.normal.size = x.size) :
    sizeAll (xs.map normal) = sizeAll xs := by
  induction xs with
  | nil => rfl
  | cons x xs ih =>
    rw [List.forall_mem_cons] at h
    rw [List.map_cons, sizeAll, sizeAll, h.1, ih h.2]

theorem sizeEntries_perm {xs ys : List (Entry Term)} (h : xs.Perm ys) :
    sizeEntries xs = sizeEntries ys := by
  induction h with
  | nil => rfl
  | cons x _ ih => rw [sizeEntries, sizeEntries, ih]
  | swap x y xs =>
    show y.value.size + (x.value.size + _) = x.value.size + (y.value.size + _)
    omega
  | trans _ _ ih ih' => exact ih.trans ih'

theorem sizeEntries_map_normal {xs : List (Entry Term)}
    (h : ∀ x ∈ xs, x.value.normal.size = x.value.size) :
    sizeEntries (xs.map Entry.normal) = sizeEntries xs := by
  induction xs with
  | nil => rfl
  | cons x xs ih =>
    rw [List.forall_mem_cons] at h
    rw [List.map_cons, sizeEntries, sizeEntries, Entry.normal_value, h.1, ih h.2]

theorem sizeEntries_normal {xs : Composite} (h : ∀ x ∈ xs, x.value.normal.size = x.value.size) :
    sizeEntries (Composite.normal xs) = sizeEntries xs := by
  rw [sizeEntries_perm (Composite.normal_perm xs), sizeEntries_map_normal h]

@[simp] theorem size_normal (x : Term) : x.normal.size = x.size := by
  induction x with
  | seq xs ih => rw [normal_seq, size, size, sizeAll_map_normal ih]
  | text s => rfl
  | composite xs ih => rw [normal_composite, size, size, sizeEntries_normal ih]
  | atom a => rfl
  | apply f xs ih => rw [normal_apply, size, size, sizeAll_map_normal ih]
  | function k r ps t ihr ihps iht =>
    have hreceiver : sizeOption (r.map normal) = sizeOption r := by
      cases r with
      | none => rfl
      | some s => exact ihr s rfl
    rw [normal_function, size, size, sizeAll_map_normal ihps, hreceiver, iht]
  | ref a => rfl

end Term

end Reshape
