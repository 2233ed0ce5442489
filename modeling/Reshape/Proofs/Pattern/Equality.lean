import Reshape.Proofs.Declarations.Normal
import Reshape.Proofs.Pattern.Likeness
import Reshape.Proofs.Term.References

/-!
# Equal terms are alike

Terms that have one form, in one sense of the word or another, have one shape, and their parts
have one form again, as long as forms are taken part by part (`Term.SameBy.shape`). One such
form is the normal form: terms that are equal up to the order of fields are alike
(`Likeness.ofEquality`).
-/

namespace Reshape

namespace Term

/-- Forms are taken part by part, apart from references and the order of fields. -/
structure PartByPart (form : Term → Term) : Prop where
  seq : ∀ items, form (.seq items) = .seq (items.map form)
  text : ∀ s, form (.text s) = .text s
  composite : ∀ fields, ∃ fields', form (.composite fields) = .composite fields'
  atom : ∀ value, form (.atom value) = .atom value
  apply : ∀ head args, form (.apply head args) = .apply head (args.map form)
  function : ∀ kind receiver params result, form (.function kind receiver params result) =
    .function kind (receiver.map form) (params.map form) (form result)

/-- Terms have the kind of their form, if references have. -/
theorem PartByPart.kind_eq {form : Term → Term} (hform : PartByPart form) {a : Term}
    (href : ∀ name, a = .ref name → form a = a) : (form a).kind = a.kind := by
  cases a with
  | seq xs => rw [hform.seq]; rfl
  | text s => rw [hform.text]
  | composite fields =>
    obtain ⟨fields', h⟩ := hform.composite fields
    rw [h]
    rfl
  | atom value => rw [hform.atom]
  | apply f xs => rw [hform.apply]; rfl
  | function k r ps t => rw [hform.function]; rfl
  | ref name => rw [href name rfl]

/-- The terms have distinct keys and one form. -/
structure SameBy (form : Term → Term) (a b : Term) : Prop where
  left : a.WellKeyed
  right : b.WellKeyed
  eq : form a = form b

/-- The terms are equal up to the order of fields, and have distinct keys. -/
abbrev Same : Term → Term → Prop := SameBy normal

namespace SameBy

variable {form : Term → Term} {a b : Term} {xs ys : List Term} {inOrder : Prop}

theorem refl (h : a.WellKeyed) : a.SameBy form a := ⟨h, h, rfl⟩

theorem symm (h : a.SameBy form b) : b.SameBy form a := ⟨h.right, h.left, h.eq.symm⟩

theorem forall₂ (hxs : ∀ x ∈ xs, x.WellKeyed) (hys : ∀ y ∈ ys, y.WellKeyed)
    (h : xs.map form = ys.map form) : List.Forall₂ (SameBy form) xs ys := by
  induction xs generalizing ys with
  | nil =>
    cases ys with
    | nil => exact .nil
    | cons y ys => cases h
  | cons x xs ih =>
    cases ys with
    | nil => cases h
    | cons y ys =>
      rw [List.forall_mem_cons] at hxs hys
      rw [List.map_cons, List.map_cons, List.cons.injEq] at h
      exact .cons ⟨hxs.1, hys.1, h.1⟩ (ih hxs.2 hys.2 h.2)

theorem wellKeyed_of_forall₂ (h : List.Forall₂ (SameBy form) xs ys) :
    (∀ x ∈ xs, x.WellKeyed) ∧ (∀ y ∈ ys, y.WellKeyed) ∧ xs.map form = ys.map form := by
  induction h with
  | nil => exact ⟨List.forall_mem_nil _, List.forall_mem_nil _, rfl⟩
  | cons hxy _ ih =>
    exact ⟨List.forall_mem_cons.2 ⟨hxy.left, ih.1⟩, List.forall_mem_cons.2 ⟨hxy.right, ih.2.1⟩,
      by rw [List.map_cons, List.map_cons, hxy.eq, ih.2.2]⟩

/-- Terms of one form have one shape, with parts of one form, if references and composites have. -/
theorem shape (hform : PartByPart form) (h : a.SameBy form b)
    (ha : ∀ name, a = .ref name → form a = a) (hb : ∀ name, b = .ref name → form b = b)
    (hfields : ∀ xs ys, a = .composite xs → b = .composite ys →
      AlikeShape (SameBy form) inOrder (.composite xs) (.composite ys)) :
    AlikeShape (SameBy form) inOrder a b := by
  have hkind : a.kind = b.kind := by rw [← hform.kind_eq ha, h.eq, hform.kind_eq hb]
  obtain ⟨hleft, hright, h⟩ := h
  cases a with
  | seq xs =>
    cases b with
    | seq ys =>
      rw [hform.seq, hform.seq, Term.seq.injEq] at h
      exact .seq (forall₂ (wellKeyed_seq.1 hleft) (wellKeyed_seq.1 hright) h)
    | _ => cases hkind
  | text s =>
    cases b with
    | text t =>
      rw [hform.text, hform.text] at h
      cases h
      exact .text s
    | _ => cases hkind
  | composite xs =>
    cases b with
    | composite ys => exact hfields xs ys rfl rfl
    | _ => cases hkind
  | atom value =>
    cases b with
    | atom other =>
      rw [hform.atom, hform.atom] at h
      cases h
      exact .atom value
    | _ => cases hkind
  | apply f xs =>
    cases b with
    | apply g ys =>
      rw [hform.apply, hform.apply, Term.apply.injEq] at h
      obtain ⟨rfl, h⟩ := h
      exact .apply f (forall₂ (wellKeyed_apply.1 hleft) (wellKeyed_apply.1 hright) h)
    | _ => cases hkind
  | function k r ps t =>
    cases b with
    | function k' r' ps' t' =>
      rw [hform.function, hform.function, Term.function.injEq] at h
      rw [wellKeyed_function] at hleft hright
      obtain ⟨rfl, hr, hps, ht⟩ := h
      refine .function k ?_ (forall₂ hleft.2.1 hright.2.1 hps) ⟨hleft.2.2, hright.2.2, ht⟩
      match r, r', hr with
      | none, none, _ => exact .none
      | some x, some y, hr => exact .some ⟨hleft.1 x rfl, hright.1 y rfl, Option.some.inj hr⟩
    | _ => cases hkind
  | ref name =>
    cases b with
    | ref other =>
      rw [ha name rfl, hb other rfl] at h
      cases h
      exact .ref name
    | _ => cases hkind

/-- Terms of one shape with parts of one form have one form. -/
theorem of_shape (hform : PartByPart form) (h : AlikeShape (SameBy form) True a b)
    (hkind : a.kind ≠ .composite) : a.SameBy form b := by
  cases h with
  | seq hitems =>
    obtain ⟨hxs, hys, heq⟩ := wellKeyed_of_forall₂ hitems
    exact ⟨wellKeyed_seq.2 hxs, wellKeyed_seq.2 hys, by rw [hform.seq, hform.seq, heq]⟩
  | composite => exact absurd rfl hkind
  | apply f hitems =>
    obtain ⟨hxs, hys, heq⟩ := wellKeyed_of_forall₂ hitems
    exact ⟨wellKeyed_apply.2 hxs, wellKeyed_apply.2 hys, by rw [hform.apply, hform.apply, heq]⟩
  | function k hr hps ht =>
    obtain ⟨hxs, hys, heq⟩ := wellKeyed_of_forall₂ hps
    cases hr with
    | none =>
      exact ⟨wellKeyed_function.2 ⟨nofun, hxs, ht.left⟩, wellKeyed_function.2 ⟨nofun, hys, ht.right⟩,
        by rw [hform.function, hform.function, heq, ht.eq]⟩
    | some h =>
      refine ⟨wellKeyed_function.2 ⟨?_, hxs, ht.left⟩, wellKeyed_function.2 ⟨?_, hys, ht.right⟩, ?_⟩
      · rintro _ ⟨⟩
        exact h.left
      · rintro _ ⟨⟩
        exact h.right
      · rw [hform.function, hform.function, Option.map_some, Option.map_some, h.eq, heq, ht.eq]
  | text s => exact refl (wellKeyed_text s)
  | atom value => exact refl (wellKeyed_atom value)
  | ref name => exact refl (wellKeyed_ref name)

end SameBy

theorem partByPart_normal : PartByPart normal where
  seq _ := normal_seq
  text := normal_text
  composite fields := ⟨Composite.normal fields, normal_composite⟩
  atom := normal_atom
  apply _ _ := normal_apply
  function _ _ _ _ := normal_function

namespace Same

variable {a b : Term}

theorem normal (h : a.Same b) : a.normal = b.normal := h.eq

theorem of_beq (ha : a.WellKeyed) (hb : b.WellKeyed) (h : (a == b) = true) : a.Same b :=
  ⟨ha, hb, (beq_iff ha hb).1 h⟩

theorem beq (h : a.Same b) : (a == b) = true := (beq_iff h.left h.right).2 h.eq

theorem size_eq (h : a.Same b) : a.size = b.size := by
  rw [← size_normal a, h.normal, size_normal]

theorem mem_refs_iff (h : a.Same b) (name : String) : name ∈ a.refs ↔ name ∈ b.refs := by
  rw [← mem_refs_normal a, h.normal, mem_refs_normal]

/-- Fields that are equal in some order are equal under each key. -/
theorem get?_rel {xs ys : Composite} (hxs : (Term.composite xs).WellKeyed)
    (hys : (Term.composite ys).WellKeyed) (h : xs.normal = ys.normal) (key : String) :
    Option.Rel (Entry.Alike Same) (xs.get? key) (ys.get? key) := by
  rw [wellKeyed_composite] at hxs hys
  have hget : (xs.get? key).map Entry.normal = (ys.get? key).map Entry.normal := by
    rw [← hxs.1.get?_normal, h, hys.1.get?_normal]
  cases hx : xs.get? key with
  | none =>
    rw [hx] at hget
    rw [Option.map_eq_none_iff.1 hget.symm]
    exact .none
  | some x =>
    rw [hx, Option.map_some] at hget
    obtain ⟨y, hy, heq⟩ := Option.map_eq_some_iff.1 hget.symm
    rw [hy]
    refine .some ⟨(congrArg Entry.key heq).symm, ⟨?_, ?_, (congrArg Entry.value heq).symm⟩,
      (congrArg Entry.modifiers heq).symm⟩
    · exact hxs.2 x (List.mem_of_find?_eq_some hx)
    · exact hys.2 y (List.mem_of_find?_eq_some hy)

/-- Equal terms have one shape, with equal parts. -/
theorem shape (h : a.Same b) : Term.AlikeShape Same False a b := by
  refine SameBy.shape partByPart_normal h ?_ ?_ ?_
  · rintro name rfl
    exact normal_ref name
  · rintro name rfl
    exact normal_ref name
  · rintro xs ys rfl rfl
    obtain ⟨hxs, hys, h⟩ := h
    rw [normal_composite, normal_composite, Term.composite.injEq] at h
    exact .composite (get?_rel hxs hys h) False.elim

theorem resolve {decls : Declarations} (hdecls : decls.WellKeyed) (h : a.Same b) :
    (decls.resolve a).Same (decls.resolve b) :=
  ⟨hdecls.resolve h.left, hdecls.resolve h.right, by
    rw [← Declarations.resolve_normal, h.normal, Declarations.resolve_normal]⟩

end Same

end Term

/-- Equal terms are alike. All terms are settled: fitting does not look at the order of fields. -/
def Likeness.ofEquality {decls : Declarations} (hdecls : decls.WellKeyed) : Likeness decls where
  alike := Term.Same
  inOrder := False
  settled _ := True
  mayShrink := True
  resolve h := (h.resolve hdecls).shape
  join h hkind := .of_shape Term.partByPart_normal h hkind
  joinFields := False.elim
  settled_atom _ := trivial
  fits _ h h' := by
    rw [← Declarations.assignable_normal hdecls h.left h'.left,
      ← Declarations.assignable_normal hdecls h.right h'.right, h.normal, h'.normal]

end Reshape
