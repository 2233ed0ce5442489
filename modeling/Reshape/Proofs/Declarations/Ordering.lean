import Reshape.Proofs.Declarations.Equivalence
import Reshape.Proofs.Term.Flags

/-!
# The order of definite terms

Where a field or a receiver may be missing, two terms can fit each other and differ in what the one has
and the other lacks. Definite terms cannot. Of three that fit in a row, the one between has a part
wherever the outer two have one (`Term.FitsBy.exists_part`), so fitting is transitive on them
(`Term.Fits.trans`). Two that fit each other have the same parts, level by level: they are equal up to
the order of fields and to what is readonly (`Term.Fits.likewise`), neither of which fitting looks at
(`Term.Likewise.fits_both`). So assignability is an order on terms with definite expansions
(`Declarations.assignable_order`).
-/

namespace Reshape

namespace Term

variable {fits fits' : Term → Term → Prop} {x y z : Term}

theorem partByPart_bare : PartByPart bare where
  seq items := by simp [bare]
  text _ := rfl
  composite fields := ⟨_, by rw [bare, writable_composite, normal_composite]⟩
  atom _ := rfl
  apply head args := by simp [bare]
  function kind receiver params result := by
    simp only [bare, writable_function, normal_function, Option.map_map, List.map_map]
    rfl

/-- The terms have distinct keys, and are equal up to the order of fields and to what is readonly. -/
abbrev Likewise : Term → Term → Prop := SameBy bare

theorem likewise_iff (hx : x.WellKeyed) (hy : y.WellKeyed) :
    x.Likewise y ↔ (x.writable == y.writable) = true :=
  ⟨fun h => (beq_iff hx.writable hy.writable).2 h.eq, fun h =>
    ⟨hx, hy, (beq_iff hx.writable hy.writable).1 h⟩⟩

theorem forall₂_of_mem {xs ys : List Term} (h : List.Forall₂ fits xs ys)
    (himp : ∀ a ∈ xs, ∀ b ∈ ys, fits a b → fits' a b) : List.Forall₂ fits' xs ys :=
  List.forall₂_iff_zip.2 ⟨h.length_eq, fun hmem =>
    himp _ (List.of_mem_zip hmem).1 _ (List.of_mem_zip hmem).2 (List.forall₂_zip h hmem)⟩

/-- The term is definite and has distinct keys. -/
structure Definite (x : Term) : Prop where
  wellKeyed : x.WellKeyed
  isDefinite : x.isDefinite = true

theorem Definite.part {part : Term} (h : x.Definite) (hpart : part ∈ x.children) : part.Definite :=
  ⟨h.wellKeyed.of_mem_children hpart, isDefinite_of_mem_children h.isDefinite hpart⟩

/-! ## Transitivity -/

theorem part?_eq_none_of_isLeaf (h : x.isLeaf = true) (place : Place) : x.part? place = none := by
  cases x with
  | text | atom | ref => cases place <;> rfl
  | _ => cases h

theorem exists_getElem?_of_length_le {xs ys : List Term} {index : Nat} {u : Term}
    (hu : xs[index]? = some u) (hlength : xs.length ≤ ys.length) : ∃ v, ys[index]? = some v := by
  obtain ⟨hindex, -⟩ := List.getElem?_eq_some_iff.1 hu
  exact ⟨_, List.getElem?_eq_getElem (Nat.lt_of_lt_of_le hindex hlength)⟩

/-- Where the first and the last of three definite terms that fit in a row have a part, the one between
has a part as well. -/
theorem FitsBy.exists_part (hxy : FitsBy fits x y) (hyz : FitsBy fits y z)
    (hx : x.Definite) (hz : z.Definite) {place : Place} {u w : Term}
    (hu : x.part? place = some u) (hw : z.part? place = some w) : ∃ v, y.part? place = some v := by
  cases hxy with
  | unknown =>
    -- Only `unknown` is fitted by `unknown`, and it has no parts.
    cases hyz with
    | unknown | leaf => cases place <;> cases hw
  | never | int | bool | undefined | text => cases place <;> cases hu
  | leaf hleaf =>
    rw [part?_eq_none_of_isLeaf hleaf] at hu
    cases hu
  | @seq xs ys hitems =>
    cases place with
    | item index => exact exists_getElem?_of_length_le hu (Nat.le_of_eq hitems.length_eq)
    | _ => cases hu
  | @apply head xs ys hitems =>
    cases place with
    | item index => exact exists_getElem?_of_length_le hu (Nat.le_of_eq hitems.length_eq)
    | _ => cases hu
  | @composite xs ys hrequired hfields =>
    cases place with
    | field key =>
      cases hyz with
      | unknown => cases hw
      | leaf hleaf => cases hleaf
      | composite hrequired' _ =>
        obtain ⟨target, htarget, rfl⟩ := Option.map_eq_some_iff.1 hw
        obtain ⟨hmem, rfl⟩ := Composite.mem_of_get? htarget
        have hneeded := (isDefinite_composite.1 hz.isDefinite target hmem).1
        obtain ⟨field, hfield, -⟩ := hrequired' target hmem hneeded
        exact ⟨field.value, congrArg (Option.map Entry.value) hfield⟩
    | _ => cases hu
  | @function kind r r' ps ps' t t' hr hps ht =>
    cases place with
    | item index =>
      have hlength := hps.length_eq
      rw [List.length_take] at hlength
      exact exists_getElem?_of_length_le hu (by omega)
    | receiver =>
      obtain ⟨rfl, -⟩ := isDefinite_function.1 hx.isDefinite
      cases hu
    | result => exact ⟨t', rfl⟩
    | field key => cases hu

/-- Fitting is transitive on definite terms. -/
theorem Fits.trans (hx : x.Definite) (hz : z.Definite) (hxy : x.Fits y) (hyz : y.Fits z) :
    x.Fits z := by
  -- By the term in between: parameters are fitted the other way round, so the outer two change sides.
  induction y using children_induction generalizing x z with
  | step y ih =>
    rw [fits_iff] at hxy hyz
    have hchains : ∀ {x z : Term}, x.Definite → z.Definite → (∀ {place : Place} {u w : Term},
        x.part? place = some u → z.part? place = some w → ∃ v, y.part? place = some v) →
        Chains Fits x y z := by
      intro x z hx hz hbetween
      refine ⟨fun place u v w hu hv hw huv hvw => ?_, fun place u w hu hv hw => ?_⟩
      · exact ih v (mem_children_of_part? hv) (hx.part (mem_children_of_part? hu))
          (hz.part (mem_children_of_part? hw)) huv hvw
      · obtain ⟨v, hv'⟩ := hbetween hu hw
        cases hv.symm.trans hv'
    have hforth := hchains hx hz fun hu hw => hxy.exists_part hyz hx hz hu hw
    have hback := hchains hz hx fun hw hu => hxy.exists_part hyz hx hz hu hw
    exact .of_parts (.trans hz.wellKeyed hforth hback hxy hyz)

/-! ## Terms that fit each other -/

/-- Composites that need all of their fields and fit each other have the same fields, apart from what is
readonly. -/
theorem likewise_composite {xs ys : Composite} (hx : (Term.composite xs).WellKeyed)
    (hy : (Term.composite ys).WellKeyed) (hx' : ∀ field ∈ xs, field.modifiers.optional = false)
    (hy' : ∀ field ∈ ys, field.modifiers.optional = false)
    (hxy : ∀ target ∈ ys, ∃ field ∈ xs.get? target.key, fits field.value target.value)
    (hyx : ∀ target ∈ xs, ∃ field ∈ ys.get? target.key, fits field.value target.value)
    (hparts : ∀ field ∈ xs, ∀ target ∈ ys, fits field.value target.value →
      fits target.value field.value → field.value.Likewise target.value) :
    (Term.composite xs).Likewise (.composite ys) := by
  have hxs := (wellKeyed_composite.1 hx).1
  have hys := (wellKeyed_composite.1 hy).1
  refine ⟨hx, hy, (bare_composite_iff hxs hys).2 fun key => ?_⟩
  cases hfield : xs.get? key with
  | none =>
    cases htarget : ys.get? key with
    | none => rfl
    | some target =>
      obtain ⟨hmem, rfl⟩ := Composite.mem_of_get? htarget
      obtain ⟨field, hget, -⟩ := hxy target hmem
      cases hfield.symm.trans hget
  | some field =>
    obtain ⟨hmem, rfl⟩ := Composite.mem_of_get? hfield
    obtain ⟨target, htarget, hback⟩ := hyx field hmem
    obtain ⟨hmem', hkey⟩ := Composite.mem_of_get? htarget
    obtain ⟨field', hget, hforth⟩ := hxy target hmem'
    rw [hkey] at hget
    cases hfield.symm.trans hget
    have hvalue := (hparts field hmem target hmem' hforth hback).eq
    have hoptional := (hx' field hmem).trans (hy' target hmem').symm
    rw [htarget, Option.map_some, Option.map_some, Entry.bare_eq_iff.2 ⟨hkey.symm, hvalue, hoptional⟩]

/-- Definite terms that fit each other are equal apart from what is readonly, if parts that fit each
other are. -/
theorem FitsBy.likewise (hx : x.Definite) (hy : y.Definite) (hxy : FitsBy fits x y)
    (hyx : FitsBy fits y x)
    (hparts : ∀ a ∈ x.children, ∀ b ∈ y.children, fits a b → fits b a → a.Likewise b) :
    x.Likewise y := by
  have hboth : ∀ {xs ys : List Term}, xs ⊆ x.children → ys ⊆ y.children → List.Forall₂ fits xs ys →
      List.Forall₂ fits ys xs → List.Forall₂ Likewise xs ys := by
    intro xs ys hxs hys hforth hback
    have hmutual := List.Forall₂.mp (fun a b hab hba => And.intro hab hba) hforth (.flip hback)
    exact forall₂_of_mem hmutual fun a ha b hb hab => hparts a (hxs ha) b (hys hb) hab.1 hab.2
  cases hxy with
  | unknown =>
    cases hyx with
    | unknown | leaf => exact .refl hx.wellKeyed
  | never =>
    cases hyx with
    | never | leaf => exact .refl hx.wellKeyed
  | int | bool | undefined | text => cases hyx
  | leaf => exact .refl hx.wellKeyed
  | seq hforth =>
    cases hyx with
    | seq hback =>
      have hitems := hboth (List.Subset.refl _) (List.Subset.refl _) hforth hback
      exact .of_shape partByPart_bare (.seq hitems) (by simp [kind])
    | leaf => exact .refl hx.wellKeyed
  | apply head hforth =>
    cases hyx with
    | apply _ hback =>
      have hargs := hboth (List.Subset.refl _) (List.Subset.refl _) hforth hback
      exact .of_shape partByPart_bare (.apply head hargs) (by simp [kind])
    | leaf => exact .refl hx.wellKeyed
  | @composite sub sup hrequired hfields =>
    cases hyx with
    | composite hrequired' hfields' =>
      have hx' := isDefinite_composite.1 hx.isDefinite
      have hy' := isDefinite_composite.1 hy.isDefinite
      have hforth : ∀ target ∈ sup, ∃ field ∈ sub.get? target.key, fits field.value target.value := by
        intro target htarget
        obtain ⟨field, hfield, -⟩ := hrequired target htarget (hy' target htarget).1
        exact ⟨field, hfield, hfields target htarget field hfield⟩
      have hback : ∀ target ∈ sub, ∃ field ∈ sup.get? target.key, fits field.value target.value := by
        intro target htarget
        obtain ⟨field, hfield, -⟩ := hrequired' target htarget (hx' target htarget).1
        exact ⟨field, hfield, hfields' target htarget field hfield⟩
      exact likewise_composite hx.wellKeyed hy.wellKeyed (fun field h => (hx' field h).1)
        (fun field h => (hy' field h).1) hforth hback fun field hfield target htarget =>
          hparts _ (List.mem_map_of_mem hfield) _ (List.mem_map_of_mem htarget)
    | leaf => exact .refl hx.wellKeyed
  | @function kind r r' ps ps' t t' hr hps ht =>
    cases hyx with
    | function _ hr' hps' ht' =>
      obtain ⟨rfl, -⟩ := isDefinite_function.1 hx.isDefinite
      obtain ⟨rfl, -⟩ := isDefinite_function.1 hy.isDefinite
      have hlength : ps.length = ps'.length := by
        have hle := hps.length_eq
        have hle' := hps'.length_eq
        rw [List.length_take] at hle hle'
        omega
      rw [hlength, List.take_length] at hps
      rw [← hlength, List.take_length] at hps'
      have hparams := hboth (by simp [children]) (by simp [children]) hps' hps
      have hresult := hparts t (by simp [children]) t' (by simp [children]) ht ht'
      exact .of_shape partByPart_bare (.function kind .none hparams hresult) (by simp [Term.kind])
    | leaf => exact .refl hx.wellKeyed

/-- Definite terms that fit each other are equal apart from what is readonly. -/
theorem Fits.likewise (hx : x.Definite) (hy : y.Definite) (hxy : x.Fits y) (hyx : y.Fits x) :
    x.Likewise y := by
  induction x using children_induction generalizing y with
  | step x ih =>
    refine (fits_iff.1 hxy).likewise hx hy (fits_iff.1 hyx) fun a ha b hb hab hba => ?_
    exact ih a ha (hx.part ha) (hy.part hb) hab hba

theorem Likewise.kind_eq (h : x.Likewise y) : x.kind = y.kind := by
  have hkind : ∀ x : Term, x.bare.kind = x.kind := fun x =>
    partByPart_bare.kind_eq fun name hname => hname ▸ rfl
  rw [← hkind x, h.eq, hkind]

theorem Likewise.fitsBy_composite {xs ys : Composite}
    (h : (Term.composite xs).Likewise (.composite ys))
    (hparts : ∀ field ∈ xs, ∀ target ∈ ys, field.value.Likewise target.value →
      fits field.value target.value) : FitsBy fits (.composite xs) (.composite ys) := by
  obtain ⟨hxs, hxs'⟩ := wellKeyed_composite.1 h.left
  obtain ⟨hys, hys'⟩ := wellKeyed_composite.1 h.right
  have hfound : ∀ target ∈ ys, ∃ field ∈ xs.get? target.key, field.bare = target.bare := by
    intro target htarget
    have hget := (bare_composite_iff hxs hys).1 h.eq target.key
    rw [hys.get?_eq_some_iff.2 ⟨htarget, rfl⟩] at hget
    exact Option.map_eq_some_iff.1 hget
  refine .composite (fun target htarget hneeded => ?_) fun target htarget field hfield => ?_
  · obtain ⟨field, hfield, heq⟩ := hfound target htarget
    exact ⟨field, hfield, (Entry.bare_eq_iff.1 heq).2.2.trans hneeded⟩
  · obtain ⟨field', hfield', heq⟩ := hfound target htarget
    cases hfield.symm.trans hfield'
    obtain ⟨hmem, -⟩ := Composite.mem_of_get? hfield
    exact hparts field hmem target htarget
      ⟨hxs' field hmem, hys' target htarget, (Entry.bare_eq_iff.1 heq).2.1⟩

/-- One level of `Likewise.fits_both`. -/
theorem Likewise.fitsBy (h : x.Likewise y)
    (hparts : ∀ a ∈ x.children, ∀ b ∈ y.children, a.Likewise b → fits a b ∧ fits b a) :
    FitsBy fits x y := by
  by_cases hkind : x.kind = .composite
  · have hkind' := h.kind_eq.symm.trans hkind
    cases x with
    | composite xs =>
      cases y with
      | composite ys =>
        refine Likewise.fitsBy_composite h fun field hfield target htarget hsame => ?_
        exact (hparts _ (List.mem_map_of_mem hfield) _ (List.mem_map_of_mem htarget) hsame).1
      | _ => cases hkind'
    | _ => cases hkind
  · have hshape : AlikeShape Likewise True x y := by
      refine SameBy.shape partByPart_bare h ?_ ?_ fun xs ys hx => absurd (hx ▸ rfl) hkind
      · rintro name rfl
        rfl
      · rintro name rfl
        rfl
    cases hshape with
    | seq hitems => exact .seq (forall₂_of_mem hitems fun a ha b hb hab => (hparts a ha b hb hab).1)
    | apply head hargs =>
      exact .apply head (forall₂_of_mem hargs fun a ha b hb hab => (hparts a ha b hb hab).1)
    | composite => exact absurd rfl hkind
    | @function kind r r' ps ps' t t' hr hps ht =>
      simp only [children] at hparts
      refine .function kind (fun expected hexpected given hgiven => ?_) ?_
        (hparts t (by simp) t' (by simp) ht).1
      · cases hexpected
        cases hgiven
        cases hr with
        | some hab => exact (hparts expected (by simp) given (by simp) hab).2
      · rw [hps.length_eq, List.take_length]
        exact forall₂_of_mem (.flip hps) fun b hb a ha hab =>
          (hparts a (by simp [ha]) b (by simp [hb]) hab).2
    | text | atom | ref => exact .leaf rfl

/-- Terms that are equal apart from what is readonly fit each other. -/
theorem Likewise.fits_both (h : x.Likewise y) : x.Fits y ∧ y.Fits x := by
  induction x using children_induction generalizing y with
  | step x ih =>
    have hparts : ∀ a ∈ x.children, ∀ b ∈ y.children, a.Likewise b → a.Fits b ∧ b.Fits a :=
      fun a ha b _ hab => ih a ha hab
    refine ⟨.of_parts (Likewise.fitsBy h hparts), .of_parts (Likewise.fitsBy h.symm ?_)⟩
    exact fun b hb a ha hba => (hparts a ha b hb hba.symm).symm

end Term

namespace Declarations

variable {decls : Declarations} {a b c : Term}

/-- A term of which nothing may be missing: it leads to no cycle and has distinct keys, and its
expansion is definite and not deeper than fitting looks. -/
structure Definite (decls : Declarations) (term : Term) : Prop where
  acyclic : decls.cycleIn? term = none
  wellKeyed : term.WellKeyed
  isDefinite : (decls.expand term).isDefinite = true
  shallow : decls.Shallow term

theorem Definite.expands (h : decls.Definite a) : decls.Expands a := ⟨h.acyclic, h.wellKeyed⟩

theorem Definite.expand (h : decls.Definite a) (hdecls : decls.WellKeyed) :
    (decls.expand a).Definite := ⟨hdecls.expand h.wellKeyed, h.isDefinite⟩

/-- One definite term fits another one exactly if its expansion does. -/
theorem Definite.assignable_iff (ha : decls.Definite a) (hb : decls.Definite b)
    (hdecls : decls.WellKeyed) :
    decls.assignable a b = true ↔ (decls.expand a).Fits (decls.expand b) :=
  ⟨fits_of_fitsWithin hdecls ha.expands hb.expands,
    fitsWithin_of_fits hdecls ha.expands hb.expands (.inl ha.shallow)⟩

/-- Assignability is an order on definite terms: it is reflexive and transitive, and terms that fit each
other have expansions that are equal up to the order of fields and to what is readonly, as terms with
such expansions fit each other. -/
theorem assignable_order (hdecls : decls.WellKeyed) (ha : decls.Definite a) (hb : decls.Definite b)
    (hc : decls.Definite c) :
    decls.assignable a a = true ∧
      (decls.assignable a b = true → decls.assignable b c = true → decls.assignable a c = true) ∧
      (decls.equivalent a b = true ↔
        ((decls.expand a).writable == (decls.expand b).writable) = true) := by
  have hx := ha.expand hdecls
  have hy := hb.expand hdecls
  refine ⟨fitsWithin_of_same hdecls maxFitDepth (.refl ha.wellKeyed), fun hab hbc => ?_, ?_⟩
  · rw [ha.assignable_iff hb hdecls] at hab
    rw [hb.assignable_iff hc hdecls] at hbc
    exact (ha.assignable_iff hc hdecls).2 (hab.trans hx (hc.expand hdecls) hbc)
  · rw [← Term.likewise_iff hx.wellKeyed hy.wellKeyed, equivalent, Bool.and_eq_true,
      ha.assignable_iff hb hdecls, hb.assignable_iff ha hdecls]
    exact ⟨fun hboth => hboth.1.likewise hx hy hboth.2, Term.Likewise.fits_both⟩

/-- A composite with a readonly field, under a name. -/
def points : Declarations :=
  (∅ : Declarations).declare "Point"
    (.composite [⟨"x", .prim .number, { readonly := true }⟩, ⟨"y", .prim .number, {}⟩])

theorem wellKeyed_points : points.WellKeyed :=
  wellKeyed_empty.declare "Point" (by simp [Composite.Distinct, Composite.keys, Term.prim])

/-- The fields in another order, and not readonly, make an equivalent composite. It fits a composite
with one of the fields, so the name does. -/
theorem equivalent_point :
    points.equivalent (.ref "Point")
        (.composite [⟨"y", .prim .number, {}⟩, ⟨"x", .prim .number, {}⟩]) = true ∧
      points.assignable (.ref "Point") (.composite [⟨"x", .unknown, {}⟩]) = true := by
  have hpoint : points.Definite (.ref "Point") :=
    ⟨by decide +kernel, trivial, by decide +kernel, by unfold Shallow; decide +kernel⟩
  have hother : points.Definite (.composite [⟨"y", .prim .number, {}⟩, ⟨"x", .prim .number, {}⟩]) :=
    ⟨by decide +kernel, by simp [Composite.Distinct, Composite.keys, Term.prim], by decide +kernel,
      by unfold Shallow; decide +kernel⟩
  have hwide : points.Definite (.composite [⟨"x", .unknown, {}⟩]) :=
    ⟨by decide +kernel, by simp [Composite.Distinct, Composite.keys, Term.unknown, Term.prim],
      by decide +kernel, by unfold Shallow; decide +kernel⟩
  obtain ⟨-, htrans, hequivalent⟩ := assignable_order wellKeyed_points hpoint hother hwide
  exact ⟨hequivalent.2 (by decide +kernel), htrans (by decide +kernel) (by decide +kernel)⟩

end Declarations

end Reshape
