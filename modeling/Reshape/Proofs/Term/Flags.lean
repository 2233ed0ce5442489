import Reshape.Proofs.Term.Normal

/-!
# Terms and the flags of their fields

Nothing that a definite term asks for may be missing: it has no optional field, and no signature with a
receiver, which another one need not have (`Term.isDefinite`).

`Term.writable` forgets which fields are readonly, and `Term.bare` the order of fields as well. The
fields under each key are all that is left of a composite then (`Term.bare_composite_iff`).
-/

namespace Reshape

namespace Term

mutual

/-- Whether no field in the term is optional, and no signature in it has a receiver. -/
def isDefinite : Term → Bool
  | .seq items => isDefiniteAll items
  | .text _ | .atom _ | .ref _ => true
  | .composite entries => isDefiniteEntries entries
  | .apply _ args => isDefiniteAll args
  | .function _ receiver params result =>
    receiver.isNone && isDefiniteAll params && isDefinite result
termination_by structural term => term

def isDefiniteAll : List Term → Bool
  | [] => true
  | item :: rest => isDefinite item && isDefiniteAll rest
termination_by structural items => items

def isDefiniteEntries : List (Entry Term) → Bool
  | [] => true
  | ⟨_, value, modifiers⟩ :: rest =>
    !modifiers.optional && isDefinite value && isDefiniteEntries rest
termination_by structural entries => entries

end

mutual

/-- The term with no field readonly. -/
def writable : Term → Term
  | .seq items => .seq (writableAll items)
  | .text s => .text s
  | .composite entries => .composite (writableEntries entries)
  | .atom value => .atom value
  | .apply head args => .apply head (writableAll args)
  | .function kind receiver params result =>
    .function kind (writableOption receiver) (writableAll params) (writable result)
  | .ref name => .ref name
termination_by structural term => term

def writableAll : List Term → List Term
  | [] => []
  | item :: rest => writable item :: writableAll rest
termination_by structural items => items

def writableEntries : List (Entry Term) → List (Entry Term)
  | [] => []
  | ⟨key, value, modifiers⟩ :: rest =>
    ⟨key, writable value, { modifiers with readonly := false }⟩ :: writableEntries rest
termination_by structural entries => entries

def writableOption : Option Term → Option Term
  | none => none
  | some term => some (writable term)
termination_by structural term => term

end

end Term

/-- The entry not readonly, and with no field in its value readonly. -/
def Entry.writable (entry : Entry Term) : Entry Term :=
  ⟨entry.key, entry.value.writable, { entry.modifiers with readonly := false }⟩

namespace Term

variable {items args params : List Term} {entries : Composite} {receiver : Option Term}
  {result x : Term}

/-! ## Definite terms -/

theorem isDefiniteAll_iff : isDefiniteAll items = true ↔ ∀ item ∈ items, item.isDefinite = true := by
  induction items with
  | nil => simp [isDefiniteAll]
  | cons item rest ih => simp [isDefiniteAll, ih]

@[simp] theorem isDefinite_seq :
    (Term.seq items).isDefinite = true ↔ ∀ item ∈ items, item.isDefinite = true :=
  isDefiniteAll_iff

@[simp] theorem isDefinite_composite :
    (Term.composite entries).isDefinite = true ↔
      ∀ entry ∈ entries, entry.modifiers.optional = false ∧ entry.value.isDefinite = true := by
  rw [isDefinite]
  induction entries with
  | nil => simp [isDefiniteEntries]
  | cons entry rest ih => simp [isDefiniteEntries, ih]

@[simp] theorem isDefinite_apply {head : String} :
    (Term.apply head args).isDefinite = true ↔ ∀ arg ∈ args, arg.isDefinite = true :=
  isDefiniteAll_iff

@[simp] theorem isDefinite_function {kind : SignatureKind} :
    (Term.function kind receiver params result).isDefinite = true ↔
      receiver = none ∧ (∀ param ∈ params, param.isDefinite = true) ∧ result.isDefinite = true := by
  rw [isDefinite, Bool.and_eq_true, Bool.and_eq_true, isDefiniteAll_iff, Option.isNone_iff_eq_none,
    and_assoc]

theorem isDefinite_of_mem_children {part : Term} (h : x.isDefinite = true) (hpart : part ∈ x.children) :
    part.isDefinite = true := by
  cases x with
  | seq xs => exact isDefinite_seq.1 h part hpart
  | composite xs =>
    obtain ⟨field, hfield, rfl⟩ := List.mem_map.1 hpart
    exact (isDefinite_composite.1 h field hfield).2
  | apply f xs => exact isDefinite_apply.1 h part hpart
  | function k r ps t =>
    obtain ⟨rfl, hps, ht⟩ := isDefinite_function.1 h
    simp only [children, List.mem_append, List.mem_singleton, Option.mem_toList] at hpart
    rcases hpart with (hpart | hpart) | rfl
    · cases hpart
    · exact hps part hpart
    · exact ht
  | text s | atom value | ref name => cases hpart

/-! ## Forgetting what is readonly -/

theorem writableAll_eq (items : List Term) : writableAll items = items.map writable := by
  induction items with
  | nil => rfl
  | cons item rest ih => rw [writableAll, ih, List.map_cons]

theorem writableEntries_eq (entries : List (Entry Term)) :
    writableEntries entries = entries.map Entry.writable := by
  induction entries with
  | nil => rfl
  | cons entry rest ih =>
    rw [writableEntries, ih, List.map_cons]
    rfl

theorem writableOption_eq (receiver : Option Term) :
    writableOption receiver = receiver.map writable := by
  cases receiver <;> rfl

@[simp] theorem writable_seq : (Term.seq items).writable = .seq (items.map writable) := by
  rw [writable, writableAll_eq]

@[simp] theorem writable_text (s : String) : (Term.text s).writable = .text s := rfl

@[simp] theorem writable_composite :
    (Term.composite entries).writable = .composite (entries.map Entry.writable) := by
  rw [writable, writableEntries_eq]

@[simp] theorem writable_atom (value : Atom) : (Term.atom value).writable = .atom value := rfl

@[simp] theorem writable_apply {head : String} :
    (Term.apply head args).writable = .apply head (args.map writable) := by
  rw [writable, writableAll_eq]

@[simp] theorem writable_function {kind : SignatureKind} :
    (Term.function kind receiver params result).writable =
      .function kind (receiver.map writable) (params.map writable) result.writable := by
  rw [writable, writableOption_eq, writableAll_eq]

@[simp] theorem writable_ref (name : String) : (Term.ref name).writable = .ref name := rfl

theorem WellKeyed.writable (h : x.WellKeyed) : x.writable.WellKeyed := by
  induction x with
  | seq xs ih => simp_all
  | text s => exact h
  | composite xs ih =>
    rw [wellKeyed_composite] at h
    rw [writable_composite, wellKeyed_composite]
    exact ⟨h.1.map fun _ => rfl, List.forall_mem_map.2 fun entry hentry =>
      ih entry hentry (h.2 entry hentry)⟩
  | atom value => exact h
  | apply f xs ih => simp_all
  | function k r ps t ihr ihps iht => simp_all
  | ref name => exact h

/-- What is left of a term without the order of fields and without knowing what is readonly. -/
def bare (x : Term) : Term := x.writable.normal

end Term

/-- What is left of an entry without knowing whether it is readonly, and of its value. -/
def Entry.bare (entry : Entry Term) : Entry Term := entry.writable.normal

theorem Entry.bare_eq_iff {x y : Entry Term} :
    x.bare = y.bare ↔ x.key = y.key ∧ x.value.bare = y.value.bare ∧
      x.modifiers.optional = y.modifiers.optional := by
  simp [Entry.bare, Entry.writable, Entry.normal, Term.bare]

namespace Term

variable {xs ys : Composite}

/-- The same is left of composites exactly if the same is left of their fields under each key. -/
theorem bare_composite_iff (hxs : xs.Distinct) (hys : ys.Distinct) :
    (Term.composite xs).bare = (Term.composite ys).bare ↔
      ∀ key, (xs.get? key).map Entry.bare = (ys.get? key).map Entry.bare := by
  have hbare : ∀ fields : Composite,
      (Term.composite fields).bare = .composite (Composite.sortByKey (fields.map Entry.bare)) := by
    intro fields
    rw [bare, writable_composite, normal_composite, Composite.normal, List.map_map]
    rfl
  have hkeys : ∀ entry : Entry Term, entry.bare.key = entry.key := fun _ => rfl
  rw [hbare, hbare, Term.composite.injEq, Composite.sortByKey_eq_iff (hxs.map hkeys),
    (hxs.map hkeys).perm_iff_get? (hys.map hkeys)]
  simp only [Composite.get?_map hkeys]

end Term

end Reshape
