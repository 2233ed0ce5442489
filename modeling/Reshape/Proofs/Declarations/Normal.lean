import Reshape.Assignable
import Reshape.Proofs.Term.Normal

/-!
# Declarations and the order of fields

Resolving references and asking whether terms fit each other do not look at the order of
fields: on normal forms, and with the normal forms of what is declared, they come to the
same (`resolve_normal`, `assignable_normal`).
-/

namespace Reshape

namespace Table

variable {κ ν : Type}

/-- The table with another value under each key. -/
def mapValues (f : ν → ν) (t : Table κ ν) : Table κ ν :=
  ⟨t.entries.map fun (key, value) => (key, f value)⟩

@[simp] theorem get?_mapValues [BEq κ] (f : ν → ν) (t : Table κ ν) (key : κ) :
    (t.mapValues f).get? key = (t.get? key).map f := by
  simp [get?, mapValues, List.find?_map, Function.comp_def]

@[simp] theorem size_mapValues (f : ν → ν) (t : Table κ ν) : (t.mapValues f).size = t.size := by
  simp [size, mapValues]

end Table

namespace Declarations

variable {decls : Declarations} {a b : Term} {fits fits' : Term → Term → Bool}

/-- All declared terms have distinct keys. -/
def WellKeyed (decls : Declarations) : Prop :=
  ∀ name shape, decls.get? name = some shape → shape.WellKeyed

theorem wellKeyed_empty : WellKeyed ∅ := by
  rintro _ _ ⟨⟩

theorem WellKeyed.declare (h : decls.WellKeyed) (name : String) {shape : Term}
    (hshape : shape.WellKeyed) : (decls.declare name shape).WellKeyed := by
  intro other found hget
  rw [get?_declare] at hget
  split at hget
  · cases hget
    exact hshape
  · exact h other found hget

/-- The declarations of the normal forms. -/
def normal (decls : Declarations) : Declarations := ⟨decls.shapes.mapValues Term.normal⟩

theorem get?_normal (decls : Declarations) (name : String) :
    decls.normal.get? name = (decls.get? name).map Term.normal :=
  decls.shapes.get?_mapValues Term.normal name

theorem size_normal (decls : Declarations) : decls.normal.size = decls.size :=
  decls.shapes.size_mapValues Term.normal

theorem WellKeyed.follow (h : decls.WellKeyed) (hops : Nat) (ha : a.WellKeyed) :
    (decls.follow hops a).WellKeyed := by
  induction hops generalizing a with
  | zero => exact ha
  | succ hops ih =>
    cases a with
    | ref name =>
      rw [Declarations.follow]
      cases hget : decls.get? name with
      | none => trivial
      | some shape => exact ih (h name shape hget)
    | _ => exact ha

theorem WellKeyed.resolve (h : decls.WellKeyed) (ha : a.WellKeyed) : (decls.resolve a).WellKeyed :=
  h.follow _ ha

theorem follow_normal (decls : Declarations) (hops : Nat) (a : Term) :
    decls.normal.follow hops a.normal = (decls.follow hops a).normal := by
  induction hops generalizing a with
  | zero => rfl
  | succ hops ih =>
    cases a with
    | ref name =>
      rw [Term.normal_ref, follow, follow, get?_normal]
      cases decls.get? name with
      | none => rfl
      | some shape => exact ih shape
    | _ => rfl

/-- The normal form stands for the normal form of what the term stands for. -/
theorem resolve_normal (decls : Declarations) (a : Term) :
    decls.normal.resolve a.normal = (decls.resolve a).normal := by
  rw [resolve, resolve, size_normal, follow_normal]

/-! ## Assignability -/

/-- `fits'` says of normal forms what `fits` says of terms. -/
def FitsAlike (fits fits' : Term → Term → Bool) : Prop :=
  ∀ a b : Term, a.WellKeyed → b.WellKeyed → fits' a.normal b.normal = fits a b

namespace FitsAlike

theorem zip (h : FitsAlike fits fits') {xs ys : List Term} (hxs : ∀ x ∈ xs, x.WellKeyed)
    (hys : ∀ y ∈ ys, y.WellKeyed) :
    ((xs.map Term.normal).zip (ys.map Term.normal)).all (fun (x, y) => fits' x y) =
      (xs.zip ys).all fun (x, y) => fits x y := by
  induction xs generalizing ys with
  | nil => rfl
  | cons x xs ih =>
    cases ys with
    | nil => rfl
    | cons y ys =>
      rw [List.forall_mem_cons] at hxs hys
      simp only [List.map_cons, List.zip_cons_cons, List.all_cons, h x y hxs.1 hys.1,
        ih hxs.2 hys.2]

theorem each (h : FitsAlike fits fits') {xs ys : List Term} (hxs : ∀ x ∈ xs, x.WellKeyed)
    (hys : ∀ y ∈ ys, y.WellKeyed) :
    fitsEach fits' (xs.map Term.normal) (ys.map Term.normal) = fitsEach fits xs ys := by
  rw [fitsEach, fitsEach, h.zip hxs hys, List.length_map, List.length_map]

theorem fields (h : FitsAlike fits fits') {xs ys : Composite} (hxs : xs.Distinct)
    (hx : ∀ x ∈ xs, x.value.WellKeyed) (hy : ∀ y ∈ ys, y.value.WellKeyed) :
    fitsFields fits' xs.normal ys.normal = fitsFields fits xs ys := by
  rw [fitsFields, (Composite.normal_perm ys).all_eq, List.all_map, fitsFields, Bool.eq_iff_iff,
    List.all_eq_true, List.all_eq_true]
  refine forall₂_congr fun y hmem => ?_
  rw [Function.comp_apply, hxs.get?_normal, Entry.normal_key]
  cases hget : xs.get? y.key with
  | none => rfl
  | some x =>
    have hx := hx x (hxs.get?_eq_some_iff.1 hget).1
    show (_ && fits' x.value.normal y.value.normal) = true ↔ (_ && fits x.value y.value) = true
    rw [h x.value y.value hx (hy y hmem)]
    rfl

theorem receiver (h : FitsAlike fits fits') {r r' : Option Term} (hr : ∀ x ∈ r, x.WellKeyed)
    (hr' : ∀ x ∈ r', x.WellKeyed) :
    fitsReceiver fits' (r.map Term.normal) (r'.map Term.normal) = fitsReceiver fits r r' := by
  match r, r' with
  | none, _ => rfl
  | some _, none => rfl
  | some x, some y => exact h y x (hr' y rfl) (hr x rfl)

/-- Whether two shapes fit is the same for their normal forms. Parts are looked at only
where both terms are of one kind; an atom fits by its value alone. -/
theorem shape (h : FitsAlike fits fits') (ha : a.WellKeyed) (hb : b.WellKeyed) :
    fitsShape fits' a.normal b.normal = fitsShape fits a b := by
  have hright : ∀ value, fitsShape fits' a.normal (.atom value) = fitsShape fits a (.atom value) := by
    intro value
    cases a with
    | atom other => cases value <;> cases other <;> (try cases ‹Prim›) <;> (try cases ‹Prim›) <;> rfl
    | _ => cases value <;> (try cases ‹Prim›) <;> rfl
  cases a with
  | atom value =>
    cases b with
    | atom other => exact hright other
    | _ => cases value <;> (try cases ‹Prim›) <;> rfl
  | seq xs =>
    cases b with
    | seq ys =>
      rw [Term.wellKeyed_seq] at ha hb
      rw [Term.normal_seq, Term.normal_seq]
      exact h.each ha hb
    | atom value => exact hright value
    | _ => rfl
  | composite xs =>
    cases b with
    | composite ys =>
      rw [Term.wellKeyed_composite] at ha hb
      rw [Term.normal_composite, Term.normal_composite]
      exact h.fields ha.1 ha.2 hb.2
    | atom value => exact hright value
    | _ => rfl
  | apply f xs =>
    cases b with
    | apply g ys =>
      rw [Term.wellKeyed_apply] at ha hb
      rw [Term.normal_apply, Term.normal_apply, fitsShape, fitsShape, h.each ha hb]
    | atom value => exact hright value
    | _ => rfl
  | function k r ps t =>
    cases b with
    | function k' r' ps' t' =>
      rw [Term.wellKeyed_function] at ha hb
      have hflip : FitsAlike (fun x y => fits y x) fun x y => fits' y x :=
        fun x y hx hy => h y x hy hx
      have hparams := hflip.zip ha.2.1 hb.2.1
      rw [Term.normal_function, Term.normal_function, fitsShape, fitsShape, h.receiver ha.1 hb.1,
        h t t' ha.2.2 hb.2.2, hparams, List.length_map, List.length_map]
    | atom value => exact hright value
    | _ => rfl
  | text s =>
    cases b with
    | atom value => exact hright value
    | _ => rfl
  | ref name =>
    cases b with
    | atom value => exact hright value
    | _ => rfl

end FitsAlike

theorem fitsWithin_normal (h : decls.WellKeyed) (levels : Nat) :
    FitsAlike (decls.fitsWithin levels) (decls.normal.fitsWithin levels) := by
  induction levels with
  | zero => exact fun _ _ _ _ => rfl
  | succ levels ih =>
    intro a b ha hb
    have ha := h.resolve ha
    have hb := h.resolve hb
    rw [fitsWithin, fitsWithin, resolve_normal, resolve_normal]
    rw [Term.beq_normal ha hb, ih.shape ha hb]

/-- Terms fit each other as their normal forms do. -/
theorem assignable_normal (h : decls.WellKeyed) (ha : a.WellKeyed) (hb : b.WellKeyed) :
    decls.normal.assignable a.normal b.normal = decls.assignable a b :=
  fitsWithin_normal h _ a b ha hb

theorem equivalent_normal (h : decls.WellKeyed) (ha : a.WellKeyed) (hb : b.WellKeyed) :
    decls.normal.equivalent a.normal b.normal = decls.equivalent a b := by
  rw [equivalent, equivalent, assignable_normal h ha hb, assignable_normal h hb ha]

end Declarations

end Reshape
