import Reshape.Proofs.Declarations.Aliases
import Reshape.Proofs.Declarations.Normal
import Reshape.Proofs.Term.Substitution

/-!
# Expansions

The expansion of a term has all declared references in it replaced by the shapes that they
stand for, again and again until none is left. For a term that leads to no cycle, as many rounds as there
are names are enough (`Declarations.expand_ref`), no declared name is left
(`Declarations.undeclared_of_mem_refs_expand`), resolving a term does not change its
expansion (`Declarations.expand_resolve`), and the expansion stands for itself
(`Declarations.resolve_expand`).
-/

namespace Reshape

namespace Declarations

variable {decls : Declarations} {done : List String} {rounds : Nat} {name : String} {term : Term}

/-- Replaces declared references by their shapes, round after round. -/
def expandWithin (decls : Declarations) : (rounds : Nat) → Term → Term
  | 0, term => term
  | rounds + 1, term => term.substitute fun name =>
    match decls.get? name with
    | some shape => decls.expandWithin rounds shape
    | none => .ref name

/-- The term with all declared references replaced by the expansions of their shapes. -/
def expand (decls : Declarations) (term : Term) : Term := decls.expandWithin decls.size term

/-! ## Enough rounds -/

/-- All declared names that the term refers to are in the list. -/
def Closed (decls : Declarations) (done : List String) (term : Term) : Prop :=
  ∀ name ∈ term.refs, decls.get? name ≠ none → name ∈ done

theorem Closed.undeclared (h : decls.Closed [] term) : ∀ name ∈ term.refs, decls.get? name = none :=
  fun name hname => Classical.byContradiction fun hdeclared =>
    List.not_mem_nil (h name hname hdeclared)

/-- The shapes of names in order refer to names in the list only. -/
theorem Ordered.closed (h : Ordered decls done) {shape : Term} (hname : name ∈ done)
    (hget : decls.get? name = some shape) : decls.Closed done shape := by
  induction h with
  | nil => cases hname
  | @cons first shape' done hfirst _ hinner _ ih =>
    rcases List.mem_cons.1 hname with rfl | hname
    · cases hfirst.symm.trans hget
      exact fun inner hmem hdeclared => List.mem_cons_of_mem _ (hinner inner hmem hdeclared)
    · exact fun inner hmem hdeclared => List.mem_cons_of_mem _ (ih hname inner hmem hdeclared)

/-- With one more name in front of the order, all shapes refer to the names behind it only. -/
theorem Ordered.shape_closed {first : String} {shape shape' : Term}
    (hget : decls.get? first = some shape)
    (hinner : ∀ inner ∈ shape.refs, decls.get? inner ≠ none → inner ∈ done) (h : Ordered decls done)
    (hname : name ∈ first :: done) (hget' : decls.get? name = some shape') :
    decls.Closed done shape' := by
  rcases List.mem_cons.1 hname with rfl | hname
  · cases hget.symm.trans hget'
    exact hinner
  · exact h.closed hname hget'

/-- Where no declared name is referred to, there is nothing to replace. -/
theorem expandWithin_of_undeclared (h : ∀ name ∈ term.refs, decls.get? name = none) (rounds : Nat) :
    decls.expandWithin rounds term = term := by
  cases rounds with
  | zero => rfl
  | succ rounds =>
    refine (Term.substitute_congr fun name hname => ?_).trans (Term.substitute_refs term)
    rw [h name hname]

/-- One round for each name in order is enough to replace those names. -/
theorem Ordered.expandWithin_succ (h : Ordered decls done) (hterm : decls.Closed done term)
    (hrounds : done.length ≤ rounds) :
    decls.expandWithin (rounds + 1) term = decls.expandWithin rounds term := by
  -- By the order: every shape that is put in refers only to names behind the first one, and
  -- there is one round fewer left for it.
  induction h generalizing term rounds with
  | nil =>
    have hnone := hterm.undeclared
    rw [expandWithin_of_undeclared hnone, expandWithin_of_undeclared hnone]
  | cons hget _ hinner hordered ih =>
    obtain ⟨more, rfl⟩ := Nat.exists_eq_add_one_of_ne_zero (Nat.ne_of_gt (Nat.zero_lt_of_lt hrounds))
    refine Term.substitute_congr fun name hname => ?_
    cases hshape : decls.get? name with
    | none => rfl
    | some shape =>
      have hmem := hterm name hname (hshape ▸ Option.some_ne_none shape)
      exact ih (hordered.shape_closed hget hinner hmem hshape) (Nat.le_of_succ_le_succ hrounds)

/-- After those rounds no declared name is left. -/
theorem Ordered.undeclared_of_mem_refs (h : Ordered decls done) (hterm : decls.Closed done term)
    (hrounds : done.length ≤ rounds) (hname : name ∈ (decls.expandWithin rounds term).refs) :
    decls.get? name = none := by
  induction h generalizing term rounds with
  | nil =>
    have hnone := hterm.undeclared
    rw [expandWithin_of_undeclared hnone] at hname
    exact hnone name hname
  | cons hget _ hinner hordered ih =>
    obtain ⟨more, rfl⟩ := Nat.exists_eq_add_one_of_ne_zero (Nat.ne_of_gt (Nat.zero_lt_of_lt hrounds))
    rw [expandWithin, Term.mem_refs_substitute] at hname
    obtain ⟨outer, houter, hname⟩ := hname
    cases hshape : decls.get? outer with
    | none =>
      rw [hshape, Term.mem_refs_ref] at hname
      exact hname ▸ hshape
    | some shape =>
      rw [hshape] at hname
      have hmem := hterm outer houter (hshape ▸ Option.some_ne_none shape)
      exact ih (hordered.shape_closed hget hinner hmem hshape) (Nat.le_of_succ_le_succ hrounds) hname

/-- The names that a term without a cycle leads to have an order. -/
theorem exists_ordered (h : decls.cycleIn? term = none) :
    ∃ done, Ordered decls done ∧ decls.Closed done term :=
  cycleAmong?_eq_none h

/-! ## Expanding the constructors -/

theorem expandWithin_eq_substitute (decls : Declarations) (rounds : Nat) :
    ∃ f, ∀ term, decls.expandWithin rounds term = term.substitute f := by
  cases rounds with
  | zero => exact ⟨.ref, fun term => (Term.substitute_refs term).symm⟩
  | succ rounds => exact ⟨_, fun term => rfl⟩

theorem expand_eq_substitute (decls : Declarations) : ∃ f, decls.expand = Term.substitute f := by
  obtain ⟨f, hf⟩ := decls.expandWithin_eq_substitute decls.size
  exact ⟨f, funext hf⟩

variable {items args params : List Term} {entries : List (Entry Term)} {receiver : Option Term}
  {result : Term}

@[simp] theorem expand_seq : decls.expand (.seq items) = .seq (items.map decls.expand) := by
  obtain ⟨f, hf⟩ := decls.expand_eq_substitute
  rw [hf, Term.substitute_seq]

@[simp] theorem expand_text (s : String) : decls.expand (.text s) = .text s := by
  obtain ⟨f, hf⟩ := decls.expand_eq_substitute
  rw [hf, Term.substitute_text]

/-- The entry with its value expanded. -/
def expandEntry (decls : Declarations) (entry : Entry Term) : Entry Term :=
  { entry with value := decls.expand entry.value }

@[simp] theorem expand_composite :
    decls.expand (.composite entries) = .composite (entries.map decls.expandEntry) := by
  obtain ⟨f, hf⟩ := decls.expand_eq_substitute
  have hentry : decls.expandEntry = Entry.substitute f := funext fun entry => by
    rw [expandEntry, hf, Entry.substitute]
  rw [hentry, hf, Term.substitute_composite]

@[simp] theorem expand_atom (value : Atom) : decls.expand (.atom value) = .atom value := by
  obtain ⟨f, hf⟩ := decls.expand_eq_substitute
  rw [hf, Term.substitute_atom]

@[simp] theorem expand_apply {head : String} :
    decls.expand (.apply head args) = .apply head (args.map decls.expand) := by
  obtain ⟨f, hf⟩ := decls.expand_eq_substitute
  rw [hf, Term.substitute_apply]

@[simp] theorem expand_function {kind : SignatureKind} :
    decls.expand (.function kind receiver params result) =
      .function kind (receiver.map decls.expand) (params.map decls.expand) (decls.expand result) := by
  obtain ⟨f, hf⟩ := decls.expand_eq_substitute
  rw [hf, Term.substitute_function]

theorem expand_of_undeclared (h : ∀ name ∈ term.refs, decls.get? name = none) :
    decls.expand term = term :=
  expandWithin_of_undeclared h decls.size

/-- A declared reference is expanded as the shape that it stands for. -/
theorem expand_ref (h : decls.cycleIn? (.ref name) = none) {shape : Term}
    (hget : decls.get? name = some shape) : decls.expand (.ref name) = decls.expand shape := by
  obtain ⟨done, hordered, hclosed⟩ := exists_ordered h
  have hmore := hordered.expandWithin_succ hclosed hordered.length_le
  rw [expand, ← hmore, expandWithin, Term.substitute_ref, hget]
  rfl

theorem undeclared_of_mem_refs_expand (h : decls.cycleIn? term = none)
    (hname : name ∈ (decls.expand term).refs) : decls.get? name = none := by
  obtain ⟨done, hordered, hclosed⟩ := exists_ordered h
  exact hordered.undeclared_of_mem_refs hclosed hordered.length_le hname

theorem expand_expand (h : decls.cycle? = none) (term : Term) :
    decls.expand (decls.expand term) = decls.expand term :=
  expand_of_undeclared fun _ hname => undeclared_of_mem_refs_expand (cycleIn?_of_cycle? h term) hname

theorem expand_follow (h : decls.cycleIn? term = none) (hops : Nat) :
    decls.expand (decls.follow hops term) = decls.expand term := by
  induction hops generalizing term with
  | zero => rfl
  | succ hops ih =>
    cases term with
    | ref name =>
      rw [follow]
      cases hget : decls.get? name with
      | none => rfl
      | some shape => exact (ih (cycleIn?_shape h hget)).trans (expand_ref h hget).symm
    | _ => rfl

/-- What a term stands for has the same expansion. -/
theorem expand_resolve (h : decls.cycleIn? term = none) :
    decls.expand (decls.resolve term) = decls.expand term :=
  expand_follow h _

/-- An expansion stands for itself. -/
theorem resolve_expand (h : decls.cycleIn? term = none) :
    decls.resolve (decls.expand term) = decls.expand term := by
  have hresolved : decls.Resolved (decls.expand term) := fun name hname =>
    undeclared_of_mem_refs_expand h (hname ▸ Term.mem_refs_ref.2 rfl)
  exact hresolved.follow _

theorem WellKeyed.expandWithin (hdecls : decls.WellKeyed) (rounds : Nat) (hterm : term.WellKeyed) :
    (decls.expandWithin rounds term).WellKeyed := by
  induction rounds generalizing term with
  | zero => exact hterm
  | succ rounds ih =>
    refine hterm.substitute fun name _ => ?_
    cases hget : decls.get? name with
    | none => trivial
    | some shape => exact ih (hdecls name shape hget)

theorem WellKeyed.expand (hdecls : decls.WellKeyed) (hterm : term.WellKeyed) :
    (decls.expand term).WellKeyed :=
  hdecls.expandWithin _ hterm

end Declarations

end Reshape
