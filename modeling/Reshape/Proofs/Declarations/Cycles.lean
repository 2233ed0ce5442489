import Reshape.Proofs.Declarations.Acyclic
import Reshape.Proofs.Term.References

/-!
# Cycle detection is exact

A term leads to the names that it refers to and, from a declared name, to those that its shape
refers to. The search through a term, and the search through the whole table, find a cycle
exactly if some name leads to itself, and the name that they report does
(`Declarations.cycle_detection_exact`).
-/

namespace Reshape

namespace Declarations

variable {decls : Declarations} {term : Term} {name other : String}

/-- The names that a term leads to: those of its references, and those in the shapes of names that it
leads to. -/
inductive LeadsTo (decls : Declarations) (term : Term) : String → Prop where
  | direct {name : String} : name ∈ term.refs → LeadsTo decls term name
  | behind {name inner : String} {shape : Term} :
      LeadsTo decls term name → decls.get? name = some shape → inner ∈ shape.refs →
      LeadsTo decls term inner

/-- The name is declared, and its shape leads to the other one. -/
def Reaches (decls : Declarations) (name other : String) : Prop :=
  ∃ shape, decls.get? name = some shape ∧ decls.LeadsTo shape other

theorem leadsTo_iff :
    decls.LeadsTo term name ↔
      ∃ start ∈ term.refs, Relation.ReflTransGen decls.Opens name start := by
  constructor
  · intro h
    induction h with
    | direct hmem => exact ⟨_, hmem, .refl⟩
    | behind _ hget hmem ih =>
      obtain ⟨start, hstart, hleads⟩ := ih
      exact ⟨start, hstart, .head ⟨_, hget, hmem⟩ hleads⟩
  · rintro ⟨start, hstart, hleads⟩
    induction hleads using Relation.ReflTransGen.head_induction_on with
    | refl => exact .direct hstart
    | head hopens _ ih =>
      obtain ⟨shape, hget, hmem⟩ := hopens
      exact .behind ih hget hmem

theorem reaches_iff : decls.Reaches name other ↔ Relation.TransGen decls.Opens other name := by
  simp only [Reaches, leadsTo_iff, Relation.TransGen.tail'_iff, Opens]
  constructor
  · rintro ⟨shape, hget, start, hstart, hleads⟩
    exact ⟨start, hleads, shape, hget, hstart⟩
  · rintro ⟨start, hleads, shape, hget, hstart⟩
    exact ⟨shape, hget, start, hstart, hleads⟩

/-- Only a declared name reaches another one. -/
theorem Reaches.declared (h : decls.Reaches name other) : decls.get? name ≠ none := by
  obtain ⟨shape, hget, -⟩ := h
  rw [hget]
  exact nofun

theorem leadsTo_ref_self (decls : Declarations) (name : String) : decls.LeadsTo (.ref name) name :=
  .direct (Term.mem_refs_ref.2 rfl)

/-- What a term leads to is grounded if its references are. -/
theorem LeadsTo.grounded (h : decls.LeadsTo term name)
    (hterm : ∀ start ∈ term.refs, decls.Grounded start) : decls.Grounded name := by
  obtain ⟨start, hstart, hleads⟩ := leadsTo_iff.1 h
  exact (hterm start hstart).of_reflTransGen hleads

theorem Grounded.not_reaches (h : decls.Grounded name) : ¬ decls.Reaches name name :=
  fun hself => h.not_transGen (reaches_iff.1 hself)

/-- The cycle that a term leads to. -/
theorem cycleIn?_eq_some {cycle : Cycle} (h : decls.cycleIn? term = some cycle) :
    decls.get? cycle.name ≠ none ∧ decls.LeadsTo term cycle.name ∧
      decls.Reaches cycle.name cycle.name := by
  obtain ⟨hdeclared, hleads, hself⟩ := cycleAmong?_eq_some h
  exact ⟨hdeclared, leadsTo_iff.2 hleads, reaches_iff.2 hself⟩

/-- The cycle of a table. -/
theorem cycle?_eq_some {cycle : Cycle} (h : decls.cycle? = some cycle) :
    decls.get? cycle.name ≠ none ∧ decls.Reaches cycle.name cycle.name := by
  obtain ⟨hdeclared, -, hself⟩ := cycleAmong?_eq_some h
  exact ⟨hdeclared, reaches_iff.2 hself⟩

/-- A term is accepted exactly if it leads to no name that reaches itself. -/
theorem cycleIn?_eq_none_iff_not_reaches :
    decls.cycleIn? term = none ↔ ∀ name, decls.LeadsTo term name → ¬ decls.Reaches name name := by
  constructor
  · exact fun h name hleads => (hleads.grounded (cycleIn?_eq_none_iff.1 h)).not_reaches
  · intro h
    cases hcycle : decls.cycleIn? term with
    | none => rfl
    | some cycle =>
      obtain ⟨-, hleads, hself⟩ := cycleIn?_eq_some hcycle
      exact absurd hself (h cycle.name hleads)

/-- A table is accepted exactly if no name reaches itself. -/
theorem cycle?_eq_none_iff_not_reaches :
    decls.cycle? = none ↔ ∀ name, ¬ decls.Reaches name name := by
  constructor
  · exact fun h name => (cycle?_eq_none_iff.1 h name).not_reaches
  · intro h
    cases hcycle : decls.cycle? with
    | none => rfl
    | some cycle => exact absurd (cycle?_eq_some hcycle).2 (h cycle.name)

/-- Cycle detection is exact. A term is accepted exactly if no declared name that it leads to
reaches itself, and if it is not, the name that is reported is such a name. A table is accepted
exactly if no declared name reaches itself, which is so exactly if a reference to any declared name
is accepted, and the name that is reported otherwise reaches itself. -/
theorem cycle_detection_exact (decls : Declarations) (term : Term) :
    (decls.cycleIn? term = none ↔
      ∀ name, decls.get? name ≠ none → decls.LeadsTo term name → ¬ decls.Reaches name name) ∧
    (∀ cycle, decls.cycleIn? term = some cycle →
      decls.get? cycle.name ≠ none ∧ decls.LeadsTo term cycle.name ∧
        decls.Reaches cycle.name cycle.name) ∧
    (decls.cycle? = none ↔ ∀ name, decls.get? name ≠ none → ¬ decls.Reaches name name) ∧
    (decls.cycle? = none ↔ ∀ name, decls.get? name ≠ none → decls.cycleIn? (.ref name) = none) ∧
    (∀ cycle, decls.cycle? = some cycle →
      decls.get? cycle.name ≠ none ∧ decls.Reaches cycle.name cycle.name) := by
  refine ⟨?_, fun _ => cycleIn?_eq_some, ?_, ?_, fun _ => cycle?_eq_some⟩
  · rw [cycleIn?_eq_none_iff_not_reaches]
    exact ⟨fun h name _ => h name, fun h name hleads hself => h name hself.declared hleads hself⟩
  · rw [cycle?_eq_none_iff_not_reaches]
    exact ⟨fun h name _ => h name, fun h name hself => h name hself.declared hself⟩
  · constructor
    · intro h name _
      rw [cycleIn?_eq_none_iff]
      exact fun inner _ => cycle?_eq_none_iff.1 h inner
    · intro h
      rw [cycle?_eq_none_iff_not_reaches]
      intro name hself
      have haccepted := h name hself.declared
      exact cycleIn?_eq_none_iff_not_reaches.1 haccepted name (leadsTo_ref_self decls name) hself

/-- Two names that refer to each other, and a third one beside them. -/
def evenOdd : Declarations :=
  ((∅ : Declarations).declare "Leaf" (.prim .string)).declare "Odd" (.seq [.ref "Even"])
    |>.declare "Even" (.seq [.ref "Odd", .ref "Leaf"])

/-- The search through the table reports the first of the two names, the search through a term that
refers to the second one reports that one; the third name is on no cycle. -/
theorem evenOdd_cycles :
    evenOdd.cycle? = some ⟨"Even"⟩ ∧ evenOdd.Reaches "Even" "Even" ∧
      evenOdd.cycleIn? (.seq [.ref "Leaf", .ref "Odd"]) = some ⟨"Odd"⟩ ∧
      evenOdd.Reaches "Odd" "Odd" ∧ ¬ evenOdd.Reaches "Leaf" "Leaf" := by
  have hkeys : evenOdd.shapes.keys = ["Leaf", "Odd", "Even"] := rfl
  have hsorted : evenOdd.shapes.keys.mergeSort (· ≤ ·) = ["Even", "Leaf", "Odd"] := by
    rw [hkeys]
    simp [List.mergeSort, List.MergeSort.Internal.splitInTwo]
  have htable : evenOdd.cycle? = some ⟨"Even"⟩ := by
    rw [cycle?, hsorted]
    decide +kernel
  have hterm : evenOdd.cycleIn? (.seq [.ref "Leaf", .ref "Odd"]) = some ⟨"Odd"⟩ := by decide +kernel
  have hleaf : evenOdd.cycleIn? (.ref "Leaf") = none := by decide +kernel
  obtain ⟨-, hreports, -, -, hreports'⟩ :=
    evenOdd.cycle_detection_exact (.seq [.ref "Leaf", .ref "Odd"])
  have haccepts := (evenOdd.cycle_detection_exact (.ref "Leaf")).1.1 hleaf
  have hdeclared : evenOdd.get? "Leaf" ≠ none := by
    intro h
    cases h
  exact ⟨htable, (hreports' _ htable).2, hterm, (hreports _ hterm).2.2,
    haccepts "Leaf" hdeclared (leadsTo_ref_self evenOdd "Leaf")⟩

end Declarations

end Reshape
