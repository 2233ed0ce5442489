import Reshape.Proofs.Declarations.Acyclic
import Reshape.Proofs.Pattern.Choices

/-!
# Properties that parts inherit

Some properties of terms pass to what the terms stand for and to their parts, and hold of every
term that is put together from parts with the property (`Declarations.Hereditary`). To lead to no
cycle is one of them (`Declarations.hereditary_accepts`). What a match binds has such a property if
the term has it (`Pattern.all_of_captures?`): a capture is a part of a resolved term, a run of
such parts, a text, or `unknown` for what is absent.
-/

namespace Reshape

/-- The property passes through references, and from the parts of a term to the term and back. -/
structure Declarations.Hereditary (decls : Declarations) (P : Term → Prop) : Prop where
  resolve : ∀ {term : Term}, P term → P (decls.resolve term)
  iff_children : ∀ term : Term, term.kind ≠ .ref → (P term ↔ ∀ part ∈ term.children, P part)

/-- To lead to no cycle is inherited by parts. -/
theorem Declarations.hereditary_accepts (decls : Declarations) : decls.Hereditary decls.Accepts := by
  have haccepts : decls.Accepts = (decls.cycleIn? · = none) :=
    funext fun _ => propext needAcyclic_eq_ok_iff
  rw [haccepts]
  exact ⟨cycleIn?_resolve, fun _ => cycleIn?_iff_children⟩

namespace Declarations.Hereditary

variable {decls : Declarations} {P : Term → Prop} {items args params : List Term}
  {entries : Composite} {receiver : Option Term} {result : Term}

theorem text (h : decls.Hereditary P) (s : String) : P (.text s) :=
  (h.iff_children (.text s) nofun).2 (List.forall_mem_nil _)

theorem atom (h : decls.Hereditary P) (value : Atom) : P (.atom value) :=
  (h.iff_children (.atom value) nofun).2 (List.forall_mem_nil _)

theorem seq (h : decls.Hereditary P) : P (.seq items) ↔ ∀ item ∈ items, P item :=
  h.iff_children _ nofun

theorem composite (h : decls.Hereditary P) :
    P (.composite entries) ↔ ∀ entry ∈ entries, P entry.value :=
  (h.iff_children (.composite entries) nofun).trans List.forall_mem_map

theorem apply (h : decls.Hereditary P) {head : String} : P (.apply head args) ↔ ∀ arg ∈ args, P arg :=
  h.iff_children _ nofun

theorem function (h : decls.Hereditary P) {kind : SignatureKind} :
    P (.function kind receiver params result) ↔
      (∀ term ∈ receiver, P term) ∧ (∀ param ∈ params, P param) ∧ P result := by
  rw [h.iff_children (.function kind receiver params result) nofun, Term.children,
    List.forall_mem_append, List.forall_mem_append, List.forall_mem_singleton, and_assoc]
  simp only [Option.mem_toList]
  rfl

theorem of_mem_children (h : decls.Hereditary P) {term part : Term} (hterm : P term)
    (hpart : part ∈ term.children) : P part :=
  (h.iff_children term (Term.kind_ne_ref_of_mem_children hpart)).1 hterm part hpart

theorem passesOn (h : decls.Hereditary P) : decls.PassesOn P where
  resolve := h.resolve
  offers hterm hoffers := by
    cases hoffers with
    | part hpart => exact h.of_mem_children hterm hpart
    | run hitems => exact h.seq.2 fun item hmem => h.of_mem_children hterm (hitems.subset hmem)
    | piece _ _ => exact h.text _
    | missing => exact h.atom _

end Declarations.Hereditary

/-! ## Captures -/

/-- All terms that are bound have the property. -/
def Captures.All (P : Term → Prop) (captures : Captures) : Prop :=
  ∀ name term, captures.get? name = some term → P term

theorem Captures.All.forField {P : Term → Prop} {captures : Captures} (h : captures.All P) {key : String}
    (hkey : P (.text key)) {value : Term} (hvalue : P value) : (captures.forField key value).All P := by
  intro name term hget
  rw [get?_forField] at hget
  split at hget
  · cases hget
    exact hvalue
  · split at hget
    · cases hget
      exact hkey
    · exact h name term hget

/-- What a match binds has the property if the term has it. -/
theorem Pattern.all_of_captures? {decls : Declarations} {P : Term → Prop} (hP : decls.Hereditary P)
    {pattern : Pattern} {term : Term} {captures : Captures} (hterm : P term)
    (h : pattern.captures? decls term = some captures) : captures.All P :=
  fun _ _ hget => inherits_of_captures? hP.passesOn h hget hterm

end Reshape
