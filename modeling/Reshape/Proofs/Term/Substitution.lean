import Reshape.Proofs.Term.References

/-!
# Terms in place of references

`Term.substitute` puts a term in the place of every reference. It depends on what stands for the
names that are referred to (`Term.substitute_congr`), and what is referred to afterwards is what those
terms refer to (`Term.mem_refs_substitute`).
-/

namespace Reshape

namespace Term

variable (f : String → Term)

mutual

/-- The term with other terms in place of its references. -/
def substitute : Term → Term
  | .seq items => .seq (substituteAll items)
  | .text s => .text s
  | .composite entries => .composite (substituteEntries entries)
  | .atom value => .atom value
  | .apply head args => .apply head (substituteAll args)
  | .function kind receiver params result =>
    .function kind (substituteOption receiver) (substituteAll params) (substitute result)
  | .ref name => f name
termination_by structural term => term

def substituteAll : List Term → List Term
  | [] => []
  | item :: rest => substitute item :: substituteAll rest
termination_by structural items => items

def substituteEntries : List (Entry Term) → List (Entry Term)
  | [] => []
  | ⟨key, value, modifiers⟩ :: rest => ⟨key, substitute value, modifiers⟩ :: substituteEntries rest
termination_by structural entries => entries

def substituteOption : Option Term → Option Term
  | none => none
  | some term => some (substitute term)
termination_by structural term => term

end

end Term

/-- The entry with other terms in place of the references in its value. -/
def Entry.substitute (f : String → Term) (entry : Entry Term) : Entry Term :=
  { entry with value := entry.value.substitute f }

namespace Term

variable {f g : String → Term} {items args params : List Term} {entries : List (Entry Term)}
  {receiver : Option Term} {result : Term}

theorem substituteAll_eq (f : String → Term) (items : List Term) :
    substituteAll f items = items.map (·.substitute f) := by
  induction items with
  | nil => rfl
  | cons item rest ih => rw [substituteAll, ih, List.map_cons]

theorem substituteEntries_eq (f : String → Term) (entries : List (Entry Term)) :
    substituteEntries f entries = entries.map (·.substitute f) := by
  induction entries with
  | nil => rfl
  | cons entry rest ih =>
    rw [substituteEntries, ih, List.map_cons]
    rfl

theorem substituteOption_eq (f : String → Term) (receiver : Option Term) :
    substituteOption f receiver = receiver.map (·.substitute f) := by
  cases receiver <;> rfl

@[simp] theorem substitute_seq :
    (Term.seq items).substitute f = .seq (items.map (·.substitute f)) := by
  rw [substitute, substituteAll_eq]

@[simp] theorem substitute_text (s : String) : (Term.text s).substitute f = .text s := rfl

@[simp] theorem substitute_composite :
    (Term.composite entries).substitute f = .composite (entries.map (·.substitute f)) := by
  rw [substitute, substituteEntries_eq]

@[simp] theorem substitute_atom (value : Atom) : (Term.atom value).substitute f = .atom value := rfl

@[simp] theorem substitute_apply {head : String} :
    (Term.apply head args).substitute f = .apply head (args.map (·.substitute f)) := by
  rw [substitute, substituteAll_eq]

@[simp] theorem substitute_function {kind : SignatureKind} :
    (Term.function kind receiver params result).substitute f =
      .function kind (receiver.map (·.substitute f)) (params.map (·.substitute f))
        (result.substitute f) := by
  rw [substitute, substituteOption_eq, substituteAll_eq]

@[simp] theorem substitute_ref (name : String) : (Term.ref name).substitute f = f name := rfl

/-- Only what stands for the names that are referred to matters. -/
theorem substitute_congr {x : Term} (h : ∀ name ∈ x.refs, f name = g name) :
    x.substitute f = x.substitute g := by
  induction x with
  | seq xs ih =>
    rw [substitute_seq, substitute_seq]
    congr 1
    exact List.map_congr_left fun x hx => ih x hx fun name hname =>
      h name (mem_refs_seq.2 ⟨x, hx, hname⟩)
  | text s => rfl
  | composite xs ih =>
    rw [substitute_composite, substitute_composite]
    congr 1
    refine List.map_congr_left fun x hx => ?_
    rw [Entry.substitute, Entry.substitute,
      ih x hx fun name hname => h name (mem_refs_composite.2 ⟨x, hx, hname⟩)]
  | atom value => rfl
  | apply head xs ih =>
    rw [substitute_apply, substitute_apply]
    congr 1
    exact List.map_congr_left fun x hx => ih x hx fun name hname =>
      h name (mem_refs_apply.2 ⟨x, hx, hname⟩)
  | function k r ps t ihr ihps iht =>
    have hreceiver : r.map (·.substitute f) = r.map (·.substitute g) :=
      Option.map_congr fun x hx => ihr x hx fun name hname =>
        h name (mem_refs_function.2 (.inl ⟨x, hx, hname⟩))
    have hparams : ps.map (·.substitute f) = ps.map (·.substitute g) :=
      List.map_congr_left fun x hx => ihps x hx fun name hname =>
        h name (mem_refs_function.2 (.inr (.inl ⟨x, hx, hname⟩)))
    have hresult := iht fun name hname => h name (mem_refs_function.2 (.inr (.inr hname)))
    rw [substitute_function, substitute_function, hreceiver, hparams, hresult]
  | ref name => exact h name (mem_refs_ref.2 rfl)

/-- With each reference in its own place nothing changes. -/
theorem substitute_refs (x : Term) : x.substitute .ref = x := by
  have hall : ∀ {xs : List Term}, (∀ x ∈ xs, x.substitute .ref = x) →
      xs.map (·.substitute .ref) = xs :=
    fun h => (List.map_congr_left h).trans (List.map_id _)
  induction x with
  | seq xs ih => rw [substitute_seq, hall ih]
  | text s => rfl
  | composite xs ih =>
    rw [substitute_composite]
    congr 1
    refine (List.map_congr_left fun x hx => ?_).trans (List.map_id _)
    rw [Entry.substitute, ih x hx]
    rfl
  | atom value => rfl
  | apply head xs ih => rw [substitute_apply, hall ih]
  | function k r ps t ihr ihps iht =>
    have hreceiver : r.map (·.substitute .ref) = r :=
      (Option.map_congr ihr).trans (congrFun Option.map_id_fun' r)
    rw [substitute_function, hreceiver, hall ihps, iht]
  | ref name => rfl

theorem mem_refs_map_substitute {name : String} {xs : List Term}
    (h : ∀ x ∈ xs, name ∈ (x.substitute f).refs ↔ ∃ inner ∈ x.refs, name ∈ (f inner).refs) :
    (∃ y ∈ xs.map (·.substitute f), name ∈ y.refs) ↔
      ∃ inner, (∃ x ∈ xs, inner ∈ x.refs) ∧ name ∈ (f inner).refs := by
  simp only [List.mem_map, exists_exists_and_eq_and]
  constructor
  · rintro ⟨x, hx, hname⟩
    obtain ⟨inner, hinner, hname⟩ := (h x hx).1 hname
    exact ⟨inner, ⟨x, hx, hinner⟩, hname⟩
  · rintro ⟨inner, ⟨x, hx, hinner⟩, hname⟩
    exact ⟨x, hx, (h x hx).2 ⟨inner, hinner, hname⟩⟩

/-- What is referred to afterwards is what the terms in the places refer to. -/
theorem mem_refs_substitute {name : String} (x : Term) :
    name ∈ (x.substitute f).refs ↔ ∃ inner ∈ x.refs, name ∈ (f inner).refs := by
  induction x with
  | seq xs ih =>
    rw [substitute_seq, mem_refs_seq, mem_refs_map_substitute ih]
    simp only [mem_refs_seq]
  | text s => simp
  | composite xs ih =>
    rw [substitute_composite, mem_refs_composite]
    have hvalues : (∃ y ∈ (xs.map (·.value)).map (·.substitute f), name ∈ y.refs) ↔ _ :=
      mem_refs_map_substitute (List.forall_mem_map.2 ih)
    simpa [Entry.substitute] using hvalues
  | atom value => simp
  | apply head xs ih =>
    rw [substitute_apply, mem_refs_apply, mem_refs_map_substitute ih]
    simp only [mem_refs_apply]
  | function k r ps t ihr ihps iht =>
    have hreceiver : (∃ y ∈ r.map (·.substitute f), name ∈ y.refs) ↔
        ∃ inner, (∃ x ∈ r, inner ∈ x.refs) ∧ name ∈ (f inner).refs := by
      cases r with
      | none => simp
      | some x => simpa using ihr x rfl
    rw [substitute_function, mem_refs_function, hreceiver, mem_refs_map_substitute ihps, iht]
    simp only [mem_refs_function, or_and_right, exists_or]
  | ref other => simp

/-- Distinct keys stay distinct, if the terms in the places have distinct keys. -/
theorem WellKeyed.substitute {x : Term} (hx : x.WellKeyed)
    (h : ∀ name ∈ x.refs, (f name).WellKeyed) : (x.substitute f).WellKeyed := by
  induction x with
  | seq xs ih =>
    rw [wellKeyed_seq] at hx
    rw [substitute_seq, wellKeyed_seq]
    exact List.forall_mem_map.2 fun x hmem => ih x hmem (hx x hmem) fun name hname =>
      h name (mem_refs_seq.2 ⟨x, hmem, hname⟩)
  | text s => trivial
  | composite xs ih =>
    rw [wellKeyed_composite] at hx
    rw [substitute_composite, wellKeyed_composite]
    exact ⟨hx.1.map fun _ => rfl, List.forall_mem_map.2 fun x hmem =>
      ih x hmem (hx.2 x hmem) fun name hname => h name (mem_refs_composite.2 ⟨x, hmem, hname⟩)⟩
  | atom value => trivial
  | apply head xs ih =>
    rw [wellKeyed_apply] at hx
    rw [substitute_apply, wellKeyed_apply]
    exact List.forall_mem_map.2 fun x hmem => ih x hmem (hx x hmem) fun name hname =>
      h name (mem_refs_apply.2 ⟨x, hmem, hname⟩)
  | function k r ps t ihr ihps iht =>
    rw [wellKeyed_function] at hx
    rw [substitute_function, wellKeyed_function]
    refine ⟨fun y hy => ?_, List.forall_mem_map.2 fun x hmem => ?_, ?_⟩
    · obtain ⟨x, hmem, rfl⟩ := Option.map_eq_some_iff.1 hy
      exact ihr x hmem (hx.1 x hmem) fun name hname =>
        h name (mem_refs_function.2 (.inl ⟨x, hmem, hname⟩))
    · exact ihps x hmem (hx.2.1 x hmem) fun name hname =>
        h name (mem_refs_function.2 (.inr (.inl ⟨x, hmem, hname⟩)))
    · exact iht hx.2.2 fun name hname => h name (mem_refs_function.2 (.inr (.inr hname)))
  | ref name => exact h name (mem_refs_ref.2 rfl)

end Term

end Reshape
