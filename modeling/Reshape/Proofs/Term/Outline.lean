import Reshape.Declarations.Basic

/-!
# Outlines

An outline says something of a term without looking at what is declared: nothing, its kind, or the
outlines of its first elements. An aspect is what is known of a term that is captured, or needed of
one that is built: an outline, or the kind of the term that it stands for.

Equal terms have the same outlines (`Outline.admits_eq_of_beq`) and the same aspects
(`Aspect.holds_iff_of_beq`).
-/

namespace Reshape

/-- What is said of a term by itself: nothing, its kind, or that it is a sequence whose first elements
have these outlines. -/
inductive Outline where
  | any
  | kind (kind : Term.Kind)
  | tuple (items : List Outline)

namespace Outline

mutual

/-- Whether the term has the outline. -/
def admits : Outline → Term → Bool
  | .any, _ => true
  | .kind k, term => term.kind == k
  | .tuple outlines, .seq items => admitsEach outlines items
  | .tuple _, _ => false
termination_by structural outline => outline

/-- Whether the first terms have the outlines, position by position. -/
def admitsEach : List Outline → List Term → Bool
  | outline :: outlines, item :: items => admits outline item && admitsEach outlines items
  | _, _ => true
termination_by structural outlines => outlines

end

@[simp]
theorem admitsEach_nil (items : List Term) : admitsEach [] items = true := by
  cases items <;> rfl

/-- Whether terms with the outline have the other one for sure. -/
def implies : Outline → Outline → Bool
  | _, .any => true
  | .kind k, .kind l => k == l
  | .tuple _, .kind k => k == .seq
  | .any, .kind _ | _, .tuple _ => false

/-- The outlines of the first elements. -/
def items : Outline → List Outline
  | .tuple outlines => outlines
  | .any | .kind _ => []

end Outline

/-- What is known of a term that is captured, or needed of one that is built: the outline of the term
itself, or the kind of the term that it stands for. -/
inductive Aspect where
  | own (outline : Outline)
  | behind (kind : Term.Kind)

namespace Aspect

def Holds (decls : Declarations) : Aspect → Term → Prop
  | own outline, term => outline.admits term = true
  | behind kind, term => (decls.resolve term).kind = kind

/-- Whether the aspect holds of the term, whatever is declared. -/
def admits : Aspect → Term → Bool
  | own outline, term => outline.admits term
  | behind kind, term => kind != .ref && term.kind == kind

/-- Whether the aspect holds for sure of terms that the other one holds of. -/
def implies : Aspect → Aspect → Bool
  | own outline, own other => outline.implies other
  | own outline, behind kind => kind != .ref && outline.implies (.kind kind)
  | behind _, own .any => true
  | behind _, own _ => false
  | behind kind, behind other => kind == other

end Aspect

/-! ## Equal terms -/

namespace Term

theorem kind_eq_of_beq {s t : Term} (h : (s == t) = true) : s.kind = t.kind := by
  cases s <;> cases t <;> first | rfl | cases h

theorem eq_of_beq_ref {name : String} {t : Term} (h : (Term.ref name == t) = true) : t = .ref name := by
  cases t with
  | ref other => rw [beq_iff_eq.1 (show (name == other) = true from h)]
  | _ => cases h

end Term

namespace Outline

mutual

/-- Equal terms have the same outlines. -/
theorem admits_eq_of_beq (outline : Outline) {s t : Term} (h : (s == t) = true) :
    outline.admits s = outline.admits t := by
  match outline with
  | .any => rfl
  | .kind k => rw [admits, admits, Term.kind_eq_of_beq h]
  | .tuple outlines =>
    cases s with
    | seq xs =>
      cases t with
      | seq ys => exact admitsEach_eq_of_beqAll outlines h
      | _ => cases h
    | _ => cases t <;> first | rfl | cases h
termination_by structural outline

theorem admitsEach_eq_of_beqAll (outlines : List Outline) {xs ys : List Term}
    (h : Term.beqAll xs ys = true) : admitsEach outlines xs = admitsEach outlines ys := by
  match outlines, xs, ys with
  | [], _, _ => rw [admitsEach_nil, admitsEach_nil]
  | _ :: _, [], [] => rfl
  | outline :: outlines, x :: xs, y :: ys =>
    rw [Term.beqAll, Bool.and_eq_true] at h
    rw [admitsEach, admitsEach, admits_eq_of_beq outline h.1, admitsEach_eq_of_beqAll outlines h.2]
termination_by structural outlines

end

theorem admits_of_implies {outline other : Outline} {term : Term} (h : outline.implies other = true)
    (hterm : outline.admits term = true) : other.admits term = true := by
  cases other with
  | any => rfl
  | kind l =>
    cases outline with
    | any => cases h
    | kind k => rwa [beq_iff_eq.1 (show (k == l) = true from h)] at hterm
    | tuple outlines =>
      rw [beq_iff_eq.1 (show (l == Term.Kind.seq) = true from h)]
      cases term with
      | seq xs => rfl
      | _ => cases hterm
  | tuple others => cases outline <;> cases h

end Outline

/-- A term that is no reference stands for itself. -/
theorem Declarations.resolve_of_kind {decls : Declarations} {term : Term} (h : term.kind ≠ .ref) :
    decls.resolve term = term := by
  cases term with
  | ref name => exact absurd rfl h
  | _ => rfl

namespace Aspect

variable {decls : Declarations} {aspect other : Aspect} {s t term : Term}

theorem holds_of_admits (h : aspect.admits term = true) : aspect.Holds decls term := by
  cases aspect with
  | own outline => exact h
  | behind kind =>
    rw [admits, Bool.and_eq_true, bne_iff_ne, beq_iff_eq] at h
    obtain ⟨href, rfl⟩ := h
    rw [Holds, Declarations.resolve_of_kind href]

theorem holds_of_implies (h : aspect.implies other = true) (hterm : aspect.Holds decls term) :
    other.Holds decls term := by
  cases aspect with
  | own outline =>
    cases other with
    | own needed => exact Outline.admits_of_implies h hterm
    | behind kind =>
      rw [implies, Bool.and_eq_true] at h
      have hkind := Outline.admits_of_implies h.2 hterm
      have hadmits : (behind kind).admits term = true := Bool.and_eq_true _ _ ▸ ⟨h.1, hkind⟩
      exact holds_of_admits hadmits
  | behind kind =>
    cases other with
    | own needed =>
      cases needed with
      | any => rfl
      | _ => cases h
    | behind needed => rwa [beq_iff_eq.1 (show (kind == needed) = true from h)] at hterm

/-- Of equal terms the same is known. -/
theorem holds_iff_of_beq (h : (s == t) = true) : aspect.Holds decls s ↔ aspect.Holds decls t := by
  cases aspect with
  | own outline => rw [Holds, Holds, outline.admits_eq_of_beq h]
  | behind kind =>
    by_cases href : s.kind = .ref
    · cases s with
      | ref name => rw [Term.eq_of_beq_ref h]
      | _ => cases href
    · have hkind := Term.kind_eq_of_beq h
      rw [Holds, Holds, Declarations.resolve_of_kind href,
        Declarations.resolve_of_kind (hkind ▸ href), hkind]

theorem admits_eq_of_beq (h : (s == t) = true) : aspect.admits s = aspect.admits t := by
  cases aspect with
  | own outline => exact outline.admits_eq_of_beq h
  | behind kind => rw [admits, admits, Term.kind_eq_of_beq h]

end Aspect

end Reshape
