import Reshape.Proofs.Declarations.Cycles

/-!
# Chains of aliases

A declared name may stand for a reference to another one, and so on. Resolving a term follows this
chain (`Declarations.Chain`) for at most one reference more than there are declared names. On a term
that leads to no cycle the names on the chain are distinct, so there are no more of them than the table
has, and the chain is always followed to its end (`Declarations.resolution_complete`).
-/

namespace Reshape

namespace Declarations

variable {decls : Declarations} {term final : Term} {passed : List String} {name : String}
  {hops : Nat}

/-- From a term to another one through declared references, each of which stands for the next term. -/
inductive Chain (decls : Declarations) : Term → List String → Term → Prop where
  | here (term : Term) : Chain decls term [] term
  | behind {name : String} {shape final : Term} {passed : List String} :
      decls.get? name = some shape → Chain decls shape passed final →
      Chain decls (.ref name) (name :: passed) final

/-- The term is no reference, or none to a declared name. -/
def Resolved (decls : Declarations) (term : Term) : Prop :=
  ∀ name, term = .ref name → decls.get? name = none

theorem Resolved.follow (h : decls.Resolved term) (hops : Nat) : decls.follow hops term = term := by
  cases hops with
  | zero => rfl
  | succ hops =>
    cases term with
    | ref name => rw [Declarations.follow, h name rfl]
    | _ => rfl

/-- A chain is followed, and its end is reached unless there are too few hops. -/
theorem exists_chain_follow (decls : Declarations) (hops : Nat) (term : Term) :
    ∃ passed, decls.Chain term passed (decls.follow hops term) ∧ passed.length ≤ hops ∧
      (passed.length < hops → decls.Resolved (decls.follow hops term)) := by
  induction hops generalizing term with
  | zero => exact ⟨[], .here term, Nat.le_refl 0, fun h => absurd h (Nat.lt_irrefl 0)⟩
  | succ hops ih =>
    cases term with
    | ref name =>
      rw [follow]
      cases hget : decls.get? name with
      | none =>
        refine ⟨[], .here _, Nat.zero_le _, fun _ other hother => ?_⟩
        cases hother
        exact hget
      | some shape =>
        obtain ⟨passed, hchain, hle, hend⟩ := ih shape
        exact ⟨name :: passed, .behind hget hchain, Nat.succ_le_succ hle,
          fun hlt => hend (Nat.lt_of_succ_lt_succ hlt)⟩
    | _ => exact ⟨[], .here _, Nat.zero_le _, fun _ other hother => by cases hother⟩

/-- As many hops as a chain has references, or more, lead to its end. -/
theorem Chain.follow_eq (h : decls.Chain term passed final) (hend : decls.Resolved final)
    (hhops : passed.length ≤ hops) : decls.follow hops term = final := by
  induction h generalizing hops with
  | here term => exact hend.follow hops
  | behind hget _ ih =>
    obtain ⟨more, rfl⟩ := Nat.exists_eq_add_one_of_ne_zero (Nat.ne_of_gt (Nat.zero_lt_of_lt hhops))
    rw [follow, hget]
    exact ih hend (Nat.le_of_succ_le_succ hhops)

theorem Chain.declared (h : decls.Chain term passed final) : ∀ name ∈ passed, decls.get? name ≠ none := by
  induction h with
  | here term => exact List.forall_mem_nil _
  | behind hget _ ih => exact List.forall_mem_cons.2 ⟨by rw [hget]; exact nofun, ih⟩

/-- A reference leads to what the shape behind it leads to. -/
theorem LeadsTo.of_shape {shape : Term} {other : String} (h : decls.LeadsTo shape other)
    (hget : decls.get? name = some shape) : decls.LeadsTo (.ref name) other := by
  induction h with
  | direct hmem => exact .behind (leadsTo_ref_self decls name) hget hmem
  | behind _ hget' hmem ih => exact .behind ih hget' hmem

/-- A term leads to all names on its chain. -/
theorem Chain.leadsTo (h : decls.Chain term passed final) : ∀ name ∈ passed, decls.LeadsTo term name := by
  induction h with
  | here term => exact List.forall_mem_nil _
  | @behind name shape final passed hget _ ih =>
    exact List.forall_mem_cons.2 ⟨leadsTo_ref_self decls name,
      fun other hother => (ih other hother).of_shape hget⟩

/-- No name comes twice on the chain of a term that leads to no cycle. -/
theorem Chain.nodup (h : decls.Chain term passed final) (hterm : decls.cycleIn? term = none) :
    passed.Nodup := by
  induction h with
  | here term => exact .nil
  | @behind name shape final passed hget hchain ih =>
    refine List.nodup_cons.2 ⟨fun hmem => ?_, ih (cycleIn?_shape hterm hget)⟩
    have hself : decls.Reaches name name := ⟨shape, hget, hchain.leadsTo name hmem⟩
    exact cycleIn?_eq_none_iff_not_reaches.1 hterm name (leadsTo_ref_self decls name) hself

/-- The end of a chain is its start or a declared shape. -/
theorem Chain.final_eq (h : decls.Chain term passed final) :
    final = term ∨ ∃ name, decls.get? name = some final := by
  induction h with
  | here term => exact .inl rfl
  | behind hget _ ih =>
    rcases ih with rfl | hshape
    · exact .inr ⟨_, hget⟩
    · exact .inr hshape

/-- The chain of a term that leads to no cycle is followed to its end, past distinct names. -/
theorem exists_chain_resolve (hterm : decls.cycleIn? term = none) :
    ∃ passed, decls.Chain term passed (decls.resolve term) ∧ passed.Nodup ∧
      passed.length ≤ decls.size ∧ decls.Resolved (decls.resolve term) := by
  obtain ⟨passed, hchain, -, hend⟩ := decls.exists_chain_follow (decls.size + 1) term
  have hnodup := hchain.nodup hterm
  have hlength : passed.length ≤ decls.size := length_le_size hnodup hchain.declared
  exact ⟨passed, hchain, hnodup, hlength, hend (Nat.lt_succ_of_le hlength)⟩

/-- A reference that such a term stands for is not declared. -/
theorem resolved_resolve (hterm : decls.cycleIn? term = none) : decls.Resolved (decls.resolve term) := by
  obtain ⟨_, -, -, -, hresolved⟩ := exists_chain_resolve hterm
  exact hresolved

/-- Resolving a term that leads to no cycle follows its chain of aliases to the end: to the first
term that is no reference to a declared name, past distinct names of the table. So no more hops would
lead any further, and what is resolved stays the same when it is resolved again. Any other term is
resolved as well, in at most one hop more than there are names, to the term itself or a declared
shape. -/
theorem resolution_complete (decls : Declarations) (term : Term) :
    (decls.cycleIn? term = none →
      (∃ passed, decls.Chain term passed (decls.resolve term) ∧ passed.Nodup ∧
        passed.length ≤ decls.size) ∧
      decls.Resolved (decls.resolve term) ∧
      (∀ hops, decls.size ≤ hops → decls.follow hops term = decls.resolve term) ∧
      decls.resolve (decls.resolve term) = decls.resolve term) ∧
    (∃ passed, decls.Chain term passed (decls.resolve term) ∧ passed.length ≤ decls.size + 1) ∧
    (decls.resolve term = term ∨ ∃ name, decls.get? name = some (decls.resolve term)) := by
  refine ⟨fun hterm => ?_, ?_⟩
  · obtain ⟨passed, hchain, hnodup, hlength, hresolved⟩ := exists_chain_resolve hterm
    exact ⟨⟨passed, hchain, hnodup, hlength⟩, hresolved,
      fun hops hhops => hchain.follow_eq hresolved (Nat.le_trans hlength hhops), hresolved.follow _⟩
  · obtain ⟨passed, hchain, hle, -⟩ := decls.exists_chain_follow (decls.size + 1) term
    exact ⟨⟨passed, hchain, hle⟩, hchain.final_eq⟩

/-- A table of one chain, and two names beside it that stand for each other. -/
def longAlias : Declarations :=
  .ofList [("A", .ref "B"), ("B", .ref "C"), ("C", .prim .number), ("Even", .ref "Odd"), ("Odd", .ref "Even")]

/-- The chain is followed to its end, and a search that is cut short one name before would not be. The
two other names are never resolved to anything but references to each other. -/
theorem longAlias_resolved :
    longAlias.cycleIn? (.ref "A") = none ∧
      longAlias.resolve (.ref "A") = .prim .number ∧ longAlias.follow 2 (.ref "A") = .ref "C" ∧
      (∀ hops, 5 ≤ hops → longAlias.follow hops (.ref "A") = .prim .number) ∧
      longAlias.cycleIn? (.ref "Even") = some ⟨"Even"⟩ ∧
      ∃ name, longAlias.get? name = some (longAlias.resolve (.ref "Even")) := by
  have haccepted : longAlias.cycleIn? (.ref "A") = none := by decide +kernel
  have hrejected : longAlias.cycleIn? (.ref "Even") = some ⟨"Even"⟩ := by decide +kernel
  have hhops := ((longAlias.resolution_complete (.ref "A")).1 haccepted).2.2.1
  refine ⟨haccepted, rfl, rfl, hhops, hrejected, ?_⟩
  obtain ⟨-, -, hsame | hshape⟩ := longAlias.resolution_complete (.ref "Even")
  · exact ⟨"Odd", by rw [hsame]; rfl⟩
  · exact hshape

end Declarations

end Reshape
