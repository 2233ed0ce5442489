import Reshape.Proofs.Declarations.Assignability

/-!
# Matching sees through references

A term and its expansion are taken apart in the same way (`Pattern.captures?_expand`): the shapes
that a match looks at are those that references stand for, wherever they are in the term, and what
is bound is the expansion of what is bound as it was written. That leaves out literals, which may be
written with a reference themselves, and names that stand twice, as the terms bound to them are
compared as they are written.

For assignability the targets must not be nested too deep, the term may be.
-/

namespace Reshape

namespace Declarations

variable {decls : Declarations} {a b : Term}

/-- An expansion leads nowhere, and so is its own expansion. -/
theorem Expands.expand (h : decls.Expands a) (hdecls : decls.WellKeyed) :
    decls.Expands (decls.expand a) ∧ decls.expand (decls.expand a) = decls.expand a := by
  have hnone : ∀ name ∈ (decls.expand a).refs, decls.get? name = none :=
    fun _ hname => undeclared_of_mem_refs_expand h.acyclic hname
  refine ⟨⟨cycleIn?_eq_none_iff.2 fun name hname => ?_, hdecls.expand h.wellKeyed⟩, ?_⟩
  · exact grounded_of_undeclared (hnone name hname)
  · exact expand_of_undeclared hnone

/-- A term and its expansion are assignable to the same terms, as long as these are not nested too
deep. -/
theorem assignable_expand (hdecls : decls.WellKeyed) (ha : decls.Expands a) (hb : decls.Expands b)
    (hlow : decls.Shallow b) : decls.assignable (decls.expand a) b = decls.assignable a b := by
  obtain ⟨hexpanded, hsame⟩ := ha.expand hdecls
  rw [Bool.eq_iff_iff]
  constructor
  · intro h
    have hfits := fits_of_fitsWithin hdecls hexpanded hb h
    rw [hsame] at hfits
    exact fitsWithin_of_fits hdecls ha hb (.inr hlow) hfits
  · intro h
    have hfits := fits_of_fitsWithin hdecls ha hb h
    rw [← hsame] at hfits
    exact fitsWithin_of_fits hdecls hexpanded hb (.inr hlow) hfits

/-- A sequence of expansions is the expansion of the sequence. -/
theorem ExpandsTo.seq {xs ys : List Term} (h : List.Forall₂ decls.ExpandsTo xs ys) :
    decls.ExpandsTo (.seq xs) (.seq ys) := by
  have hall : (∀ x ∈ xs, decls.Expands x) ∧ ys = xs.map decls.expand := by
    induction h with
    | nil => exact ⟨List.forall_mem_nil _, rfl⟩
    | cons hfirst _ ih =>
      obtain ⟨hx, rfl⟩ := hfirst
      obtain ⟨hxs, rfl⟩ := ih
      exact ⟨List.forall_mem_cons.2 ⟨hx, hxs⟩, rfl⟩
  obtain ⟨hxs, rfl⟩ := hall
  have hacyclic : decls.cycleIn? (.seq xs) = none :=
    (cycleIn?_iff_children (by simp [Term.kind])).2 fun x hx => (hxs x hx).acyclic
  exact ⟨⟨hacyclic, Term.wellKeyed_seq.2 fun x hx => (hxs x hx).wellKeyed⟩, expand_seq.symm⟩

end Declarations

open Declarations

/-- A term is alike its expansion. Both are assignable to the same targets, if these lead to no
cycle and are not nested too deep. -/
def Resemblance.ofReferences {decls : Declarations} (hdecls : decls.WellKeyed) : Resemblance decls where
  alike := decls.ExpandsTo
  inOrder := True
  targets target := decls.Expands target ∧ decls.Shallow target
  resolve := by
    rintro a _ ⟨ha, rfl⟩
    rw [resolve_expand ha.acyclic]
    exact ha.shape hdecls
  seq h := .seq h
  text s := ⟨⟨rfl, trivial⟩, expand_text s |>.symm⟩
  unknown := ⟨⟨rfl, trivial⟩, expand_atom _ |>.symm⟩
  fits := by
    rintro a _ target ⟨htarget, hlow⟩ ⟨ha, rfl⟩
    exact (assignable_expand hdecls ha htarget hlow).symm

namespace Pattern

variable {decls : Declarations} {term : Term} {pattern : Pattern}

/-- Matching sees through references: a pattern without literals in which no name stands twice
matches a term exactly if it matches the term's expansion, and then it binds the same names, to the
expansions of what it binds in the term. Only the term and the terms that the pattern compares with
must lead to no cycle, and only the latter must not be nested too deep. -/
theorem captures?_expand (hdecls : decls.WellKeyed) (hterm : term.WellKeyed)
    (hacyclic : decls.Accepts term) (hliteral : pattern.literalFree = true)
    (hnames : pattern.names.Nodup) (hpattern : pattern.WellKeyed)
    (htargets : ∀ target ∈ pattern.terms, decls.Accepts target ∧ decls.Shallow target) :
    Option.Rel (fun bound expanded => ∀ name, expanded.get? name = (bound.get? name).map decls.expand)
      (pattern.captures? decls term) (pattern.captures? decls (decls.expand term)) := by
  have hexpands : decls.Expands term := ⟨needAcyclic_eq_ok_iff.1 hacyclic, hterm⟩
  have hfits : ∀ target ∈ pattern.terms, decls.Expands target ∧ decls.Shallow target :=
    fun target htarget => by
      obtain ⟨haccepts, hlow⟩ := htargets target htarget
      exact ⟨⟨needAcyclic_eq_ok_iff.1 haccepts, hpattern target htarget⟩, hlow⟩
  have halike : (Resemblance.ofReferences hdecls).alike term (decls.expand term) := ⟨hexpands, rfl⟩
  have hmatches := Resemblance.captures?_alike hliteral hnames hfits halike
  generalize pattern.captures? decls term = x, pattern.captures? decls (decls.expand term) = y
    at hmatches
  cases hmatches with
  | none => exact .none
  | @some bound expanded hcaptured =>
    refine .some fun name => ?_
    have hbound := hcaptured.bound name
    generalize bound.get? name = u, expanded.get? name = v at hbound
    cases hbound with
    | none => rfl
    | some hexpansion => exact congrArg some hexpansion.2

/-- A point with a note, and beside it a name that reaches itself. -/
def notedPoint : Declarations :=
  ((∅ : Declarations).declare "Loop" (.ref "Loop")).declare "Point"
      (.composite [⟨"x", .prim .number, {}⟩]) |>.declare "Noted" (.seq [.ref "Point", .text "here"])

theorem wellKeyed_notedPoint : notedPoint.WellKeyed :=
  ((wellKeyed_empty.declare "Loop" (by simp)).declare "Point"
    (by simp [Composite.Distinct, Composite.keys, Term.prim])).declare "Noted" (by simp)

/-- A text, or else a sequence that has a point in front. -/
def pointInFront : Pattern :=
  alt [text [.run "whole"], head (named "point" (fits (.ref "Point"))) (bind "notes")]

/-- The point is captured by its name, or, in the expansion, with its fields. -/
theorem captures?_pointInFront :
    pointInFront.captures? notedPoint (.ref "Noted") =
        some (.ofList [("point", .ref "Point"), ("notes", .seq [.text "here"])]) ∧
      ∃ expanded, pointInFront.captures? notedPoint (notedPoint.expand (.ref "Noted")) = some expanded ∧
        expanded.get? "point" = some (.composite [⟨"x", .prim .number, {}⟩]) ∧
        expanded.get? "notes" = some (.seq [.text "here"]) ∧ expanded.get? "whole" = none := by
  have hbound : pointInFront.captures? notedPoint (.ref "Noted") =
      some (.ofList [("point", .ref "Point"), ("notes", .seq [.text "here"])]) := by rfl
  have hacyclic : ∀ name, name = "Noted" ∨ name = "Point" → notedPoint.Accepts (.ref name) := by
    rintro name (rfl | rfl) <;> exact needAcyclic_eq_ok_iff.2 (by decide +kernel)
  have hlow : notedPoint.Shallow (.ref "Point") := by
    rw [Shallow]
    decide +kernel
  have hterm : (Term.ref "Noted").WellKeyed := by simp
  have hliteral : pointInFront.literalFree = true := by decide
  have hmatches := captures?_expand wellKeyed_notedPoint hterm (hacyclic "Noted" (.inl rfl)) hliteral
    (by decide) (by simp [WellKeyed, pointInFront, head, terms, termsAll, termsOption])
    (by simpa [pointInFront, head, terms, termsAll, termsOption] using
      And.intro (hacyclic "Point" (.inr rfl)) hlow)
  rw [hbound] at hmatches
  generalize pointInFront.captures? notedPoint (notedPoint.expand (.ref "Noted")) = found at hmatches
  cases hmatches with
  | @some _ expanded hexpanded =>
    refine ⟨hbound, expanded, rfl, ?_, ?_, ?_⟩ <;>
    · rw [hexpanded]
      rfl

end Pattern

end Reshape
