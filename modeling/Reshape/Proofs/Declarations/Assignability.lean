import Reshape.Proofs.Pattern.Expansion

/-!
# Fitting without references

`Term.Fits` is the plain relation between shapes that assignability stands for: it follows no
reference, accepts nothing because it is equal, and looks as deep as it has to. What
`Declarations.assignable` accepts are terms whose expansions are in that relation, and all of them
whose expansions are not nested too deep (`Declarations.assignable_iff_fits_expand`).

Both sides are taken level by level. `Term.FitsBy` has the clauses of one level, and holds of terms
whenever it holds of terms of the same shapes (`Term.FitsBy.transport`).
-/

namespace Reshape

namespace Term

/-- The clauses by which a term fits another one, where parts fit by `fits`. -/
inductive FitsBy (fits : Term → Term → Prop) : Term → Term → Prop where
  | unknown {sub : Term} : FitsBy fits sub (.atom (.prim .unknown))
  | never {sup : Term} : FitsBy fits (.atom (.prim .never)) sup
  | int (value : Int64) : FitsBy fits (.atom (.int value)) (.atom (.prim .number))
  | bool (value : Bool) : FitsBy fits (.atom (.bool value)) (.atom (.prim .boolean))
  | undefined : FitsBy fits (.atom (.prim .undefined)) (.atom (.prim .void))
  | text (s : String) : FitsBy fits (.text s) (.atom (.prim .string))
  | seq {xs ys : List Term} : List.Forall₂ fits xs ys → FitsBy fits (.seq xs) (.seq ys)
  | apply (head : String) {xs ys : List Term} :
      List.Forall₂ fits xs ys → FitsBy fits (.apply head xs) (.apply head ys)
  /-- A field that must be there is there; fields that are not asked for do not count. -/
  | composite {sub sup : Composite} :
      (∀ target ∈ sup, target.modifiers.optional = false →
        ∃ field ∈ sub.get? target.key, field.modifiers.optional = false) →
      (∀ target ∈ sup, ∀ field ∈ sub.get? target.key, fits field.value target.value) →
      FitsBy fits (.composite sub) (.composite sup)
  /-- A signature may take fewer parameters. Receivers count where both signatures have one. -/
  | function (kind : SignatureKind) {r r' : Option Term} {ps ps' : List Term} {t t' : Term} :
      (∀ expected ∈ r, ∀ given ∈ r', fits given expected) →
      List.Forall₂ fits (ps'.take ps.length) ps → fits t t' →
      FitsBy fits (.function kind r ps t) (.function kind r' ps' t')
  | leaf {term : Term} : term.isLeaf = true → FitsBy fits term term

/-- The least relation that is closed under the clauses. -/
inductive Fits : Term → Term → Prop where
  | of_parts {sub sup : Term} : FitsBy Fits sub sup → Fits sub sup

theorem fits_iff {sub sup : Term} : sub.Fits sup ↔ FitsBy Fits sub sup :=
  ⟨fun ⟨h⟩ => h, .of_parts⟩

section

variable {related fits fits' : Term → Term → Prop} {xs xs' ys ys' : List Term}

/-- What `fits` says of elements of the lists, `fits'` says of terms that are related to them. -/
def Carries (related fits fits' : Term → Term → Prop) (xs ys : List Term) : Prop :=
  ∀ a ∈ xs, ∀ b ∈ ys, ∀ a' b', related a a' → related b b' → fits a b → fits' a' b'

theorem Carries.mono {more more' : List Term} (h : Carries related fits fits' more more')
    (hxs : xs ⊆ more) (hys : ys ⊆ more') : Carries related fits fits' xs ys :=
  fun a ha b hb => h a (hxs ha) b (hys hb)

theorem Carries.forall₂ (h : Carries related fits fits' xs ys) (hxs : List.Forall₂ related xs xs')
    (hys : List.Forall₂ related ys ys') (hfits : List.Forall₂ fits xs ys) :
    List.Forall₂ fits' xs' ys' := by
  induction hfits generalizing xs' ys' with
  | nil =>
    cases hxs
    cases hys
    exact .nil
  | cons hab _ ih =>
    obtain _ | ⟨ha, hxs⟩ := hxs
    obtain _ | ⟨hb, hys⟩ := hys
    have hfirst := h _ List.mem_cons_self _ List.mem_cons_self _ _ ha hb hab
    exact .cons hfirst (ih (h.mono (List.subset_cons_self _ _) (List.subset_cons_self _ _)) hxs hys)

theorem exists_mem_alike {ys ys' : Composite} (h : List.Forall₂ (Entry.Alike related) ys ys')
    {target' : Entry Term} (hmem : target' ∈ ys') :
    ∃ target ∈ ys, Entry.Alike related target target' := by
  induction h with
  | nil => cases hmem
  | cons hfirst _ ih =>
    rcases List.mem_cons.1 hmem with rfl | hmem
    · exact ⟨_, List.mem_cons_self, hfirst⟩
    · obtain ⟨target, htarget, halike⟩ := ih hmem
      exact ⟨target, List.mem_cons_of_mem _ htarget, halike⟩

/-- Composites fit if composites with related fields do. -/
theorem FitsBy.transport_composite {xs xs' ys ys' : Composite}
    (hrequired : ∀ target ∈ ys, target.modifiers.optional = false →
      ∃ field ∈ xs.get? target.key, field.modifiers.optional = false)
    (hfields : ∀ target ∈ ys, ∀ field ∈ xs.get? target.key, fits field.value target.value)
    (hxs : ∀ key, Option.Rel (Entry.Alike related) (xs.get? key) (xs'.get? key))
    (hys : List.Forall₂ (Entry.Alike related) ys ys')
    (hcarries : Carries related fits fits' (Term.composite xs).children (Term.composite ys).children) :
    FitsBy fits' (.composite xs') (.composite ys') := by
  refine .composite (fun target' htarget' hneeded => ?_) fun target' htarget' field' hfield' => ?_
  · obtain ⟨target, htarget, halike⟩ := exists_mem_alike hys htarget'
    obtain ⟨field, hfield, hthere⟩ := hrequired target htarget (halike.modifiers ▸ hneeded)
    obtain ⟨field', hfield', hsame⟩ := exists_of_rel_left (hxs target.key) hfield
    exact ⟨field', halike.key ▸ hfield', hsame.modifiers ▸ hthere⟩
  · obtain ⟨target, htarget, halike⟩ := exists_mem_alike hys htarget'
    rw [← halike.key] at hfield'
    obtain ⟨field, hfield, hsame⟩ := exists_of_rel_right (hxs target.key) hfield'
    have hleft : field.value ∈ (Term.composite xs).children :=
      List.mem_map_of_mem (List.mem_of_find?_eq_some hfield)
    exact hcarries _ hleft _ (List.mem_map_of_mem htarget) _ _ hsame.value halike.value
      (hfields target htarget field hfield)

/-- The clauses hold of terms of the same shapes, if they carry over from part to part, in both
directions: parameters and receivers fit the other way round. -/
theorem FitsBy.transport {x x' y y' : Term} (h : FitsBy fits x y) (hx : AlikeShape related True x x')
    (hy : AlikeShape related True y y') (hforth : Carries related fits fits' x.children y.children)
    (hback : Carries related fits fits' y.children x.children) : FitsBy fits' x' y' := by
  cases h with
  | unknown =>
    cases hy
    exact .unknown
  | never =>
    cases hx
    exact .never
  | int value =>
    cases hx
    cases hy
    exact .int value
  | bool value =>
    cases hx
    cases hy
    exact .bool value
  | undefined =>
    cases hx
    cases hy
    exact .undefined
  | text s =>
    cases hx
    cases hy
    exact .text s
  | seq hitems =>
    obtain ⟨hxs⟩ := hx
    obtain ⟨hys⟩ := hy
    exact .seq (hforth.forall₂ hxs hys hitems)
  | apply head hitems =>
    cases hx with
    | apply _ hxs =>
      cases hy with
      | apply _ hys => exact .apply head (hforth.forall₂ hxs hys hitems)
  | composite hrequired hfields =>
    cases hx with
    | composite hxs _ =>
      cases hy with
      | composite _ hys =>
        exact .transport_composite hrequired hfields hxs (hys trivial) hforth
  | @function kind r r' ps ps' t t' hr hps ht =>
    cases hx with
    | function _ hr₁ hps₁ ht₁ =>
      cases hy with
      | function _ hr₂ hps₂ ht₂ =>
        simp only [children] at hforth hback
        refine .function kind (fun expected hexpected given hgiven => ?_) ?_ ?_
        · obtain ⟨mine, hmine, hmineAlike⟩ := exists_of_rel_right hr₁ hexpected
          obtain ⟨theirs, htheirs, htheirsAlike⟩ := exists_of_rel_right hr₂ hgiven
          have hfits := hr mine hmine theirs htheirs
          exact hback theirs (by simp_all) mine (by simp_all) _ _ htheirsAlike hmineAlike hfits
        · have hsome : Carries related fits fits' (ps'.take ps.length) ps :=
            hback.mono (fun a ha => by simp [List.mem_of_mem_take ha]) (fun a ha => by simp [ha])
          rw [← hps₁.length_eq]
          exact hsome.forall₂ (List.forall₂_take _ hps₂) hps₁ hps
        · exact hforth t (by simp) t' (by simp) _ _ ht₁ ht₂ ht
  | leaf hleaf =>
    cases hx with
    | text | atom | ref =>
      cases hy
      exact .leaf rfl
    | _ => cases hleaf

end

end Term

namespace Declarations

variable {fits : Term → Term → Bool}

theorem fitsEach_iff {xs ys : List Term} :
    fitsEach fits xs ys = true ↔ List.Forall₂ (fun a b => fits a b = true) xs ys := by
  simp [fitsEach, List.forall₂_iff_zip]

theorem fitsFields_iff {sub sup : Composite} :
    fitsFields fits sub sup = true ↔
      (∀ target ∈ sup, target.modifiers.optional = false →
        ∃ field ∈ sub.get? target.key, field.modifiers.optional = false) ∧
        ∀ target ∈ sup, ∀ field ∈ sub.get? target.key, fits field.value target.value = true := by
  rw [fitsFields, List.all_eq_true, ← forall₂_and]
  refine forall₂_congr fun target _ => ?_
  cases sub.get? target.key with
  | none => simp
  | some field => cases target.modifiers.optional <;> simp

theorem fitsReceiver_iff {r r' : Option Term} :
    fitsReceiver fits r r' = true ↔ ∀ expected ∈ r, ∀ given ∈ r', fits given expected = true := by
  cases r <;> cases r' <;> simp [fitsReceiver]

/-- Parameters are taken from the front, and all that are expected have to be given. -/
theorem fitsParams_iff {mine theirs : List Term} :
    (mine.length ≤ theirs.length ∧ ((mine.zip theirs).all fun (x, y) => fits y x) = true) ↔
      List.Forall₂ (fun a b => fits a b = true) (theirs.take mine.length) mine := by
  induction mine generalizing theirs with
  | nil => simp
  | cons x mine ih =>
    cases theirs with
    | nil => simp
    | cons y theirs =>
      rw [List.length_cons, List.take_succ_cons, List.forall₂_cons, ← ih]
      simp [and_left_comm]

/-- By shape, or as the same leaf, terms fit exactly by the clauses. -/
theorem fitsBy_iff {x y : Term} :
    Term.FitsBy (fun a b => fits a b = true) x y ↔
      (x = y ∧ x.isLeaf = true) ∨ fitsShape fits x y = true := by
  constructor
  · intro h
    cases h with
    | unknown => exact .inr rfl
    | never =>
      refine .inr ?_
      unfold fitsShape
      split <;> simp_all
    | int | bool | undefined | text => exact .inr rfl
    | seq h => exact .inr (fitsEach_iff.2 h)
    | apply head h =>
      refine .inr ?_
      rw [fitsShape, fitsEach_iff.2 h, beq_self_eq_true, Bool.and_self]
    | composite hmissing hfields => exact .inr (fitsFields_iff.2 ⟨hmissing, hfields⟩)
    | function kind hr hps ht =>
      obtain ⟨hlength, hparams⟩ := fitsParams_iff.2 hps
      refine .inr ?_
      rw [fitsShape, fitsReceiver_iff.2 hr, hparams, ht, decide_eq_true hlength, beq_self_eq_true]
      rfl
    | leaf h => exact .inl ⟨rfl, h⟩
  · rintro (⟨rfl, h⟩ | h)
    · exact .leaf h
    · unfold fitsShape at h
      split at h
      · exact .unknown
      · exact .never
      · rename_i a p _ _
        unfold Atom.fits at h
        split at h
        · exact .int _
        · exact .bool _
        · exact .undefined
        · rw [beq_iff_eq] at h
          exact h ▸ .leaf rfl
        · cases h
      · exact .text _
      · exact .seq (fitsEach_iff.1 h)
      · obtain ⟨hrequired, hfields⟩ := fitsFields_iff.1 h
        exact .composite hrequired hfields
      · rw [Bool.and_eq_true, beq_iff_eq] at h
        obtain ⟨rfl, h⟩ := h
        exact .apply _ (fitsEach_iff.1 h)
      · simp only [Bool.and_eq_true, beq_iff_eq, decide_eq_true_eq] at h
        obtain ⟨⟨⟨⟨rfl, hlength⟩, hr⟩, hps⟩, ht⟩ := h
        exact .function _ (fitsReceiver_iff.1 hr) (fitsParams_iff.1 ⟨hlength, hps⟩) ht
      · cases h

end Declarations

namespace Term

/-! ## Substitution -/

variable {f : String → Term} {x y : Term}

/-- Apart from references, what is substituted into keeps its shape. -/
theorem AlikeShape.substitute {P : Term → Prop} (f : String → Term) (hx : x.kind ≠ .ref)
    (hparts : ∀ part ∈ x.children, P part) :
    AlikeShape (fun a b => P a ∧ b = a.substitute f) True x (x.substitute f) := by
  have hall : ∀ {xs : List Term}, (∀ a ∈ xs, P a) →
      List.Forall₂ (fun a b => P a ∧ b = a.substitute f) xs (xs.map (·.substitute f)) :=
    fun hxs => List.forall₂_map_right_iff.2 (List.forall₂_same.2 fun a ha => ⟨hxs a ha, rfl⟩)
  cases x with
  | seq xs =>
    rw [substitute_seq]
    exact .seq (hall hparts)
  | text s => exact .text s
  | composite xs =>
    rw [substitute_composite]
    refine .fields (List.forall₂_map_right_iff.2 (List.forall₂_same.2 fun field hfield => ?_))
    exact ⟨rfl, ⟨hparts _ (List.mem_map_of_mem hfield), rfl⟩, rfl⟩
  | atom value => exact .atom value
  | apply head xs =>
    rw [substitute_apply]
    exact .apply head (hall hparts)
  | function k r ps t =>
    rw [substitute_function]
    simp only [children] at hparts
    refine .function k ?_ (hall fun a ha => hparts a (by simp [ha])) ⟨hparts t (by simp), rfl⟩
    cases r with
    | none => exact .none
    | some receiver => exact .some ⟨hparts receiver (by simp), rfl⟩
  | ref name => exact absurd rfl hx

theorem AlikeShape.flip {alike : Term → Term → Prop} (h : AlikeShape alike True x y) :
    AlikeShape (flip alike) True y x := by
  cases h with
  | seq h => exact .seq (List.Forall₂.flip h)
  | text s => exact .text s
  | composite _ h =>
    refine .fields (List.Forall₂.flip ((h trivial).imp fun a b hab => ?_))
    exact ⟨hab.key.symm, hab.value, hab.modifiers.symm⟩
  | atom value => exact .atom value
  | apply head h => exact .apply head (List.Forall₂.flip h)
  | function k hr hps ht =>
    refine .function k ?_ (List.Forall₂.flip hps) ht
    cases hr with
    | none => exact .none
    | some hab => exact .some hab
  | ref name => exact .ref name

/-- One level of `Fits.substitute_of_same`. -/
theorem Fits.substitute_of_parts (h : x.Same y) (hf : ∀ name ∈ x.refs, (f name).Fits (f name))
    (hparts : ∀ a ∈ x.children, ∀ b ∈ y.children, a.Same b →
      (a.substitute f).Fits (b.substitute f) ∧ (b.substitute f).Fits (a.substitute f)) :
    (x.substitute f).Fits (y.substitute f) := by
  classical
  by_cases href : x.kind = .ref
  · cases h.shape with
    | ref name => exact hf name (mem_refs_ref.2 rfl)
    | _ => cases href
  · have hkind : y.kind ≠ .ref := by
      cases h.shape <;> exact href
    let fits (a b : Term) : Bool := decide ((a.substitute f).Fits (b.substitute f))
    have hfits : FitsBy (fun a b => fits a b = true) x y :=
      Declarations.fitsBy_iff.2 (Declarations.fitsShape_of_same h fun a ha b hb hab => by
        simpa [fits] using hparts a ha b hb hab)
    have hcarries : ∀ xs ys : List Term,
        Carries (fun a b => True ∧ b = a.substitute f) (fun a b => fits a b = true) Fits xs ys := by
      rintro xs ys a _ b _ _ _ ⟨-, rfl⟩ ⟨-, rfl⟩ hab
      exact of_decide_eq_true hab
    exact .of_parts (hfits.transport (.substitute f href fun _ _ => trivial)
      (.substitute f hkind fun _ _ => trivial) (hcarries _ _) (hcarries _ _))

/-- Equal terms fit each other whatever is put in the places of references, if that fits itself. -/
theorem Fits.substitute_of_same (h : x.Same y) (hf : ∀ name ∈ x.refs, (f name).Fits (f name)) :
    (x.substitute f).Fits (y.substitute f) ∧ (y.substitute f).Fits (x.substitute f) := by
  induction x using children_induction generalizing y with
  | step x ih =>
    have hparts : ∀ a ∈ x.children, ∀ b ∈ y.children, a.Same b →
        (a.substitute f).Fits (b.substitute f) ∧ (b.substitute f).Fits (a.substitute f) :=
      fun a ha b _ hab => ih a ha hab fun name hname => hf name (mem_refs_of_mem_children ha hname)
    refine ⟨.substitute_of_parts h hf hparts, .substitute_of_parts h.symm (fun name hname => ?_) ?_⟩
    · exact hf name ((h.mem_refs_iff name).2 hname)
    · exact fun b hb a ha hba => (hparts a ha b hb hba.symm).symm

end Term

namespace Declarations

variable {decls : Declarations} {a b : Term}

/-! ## Expansions -/

/-- Equal terms have expansions that fit. -/
theorem fits_expandWithin_of_same (hdecls : decls.WellKeyed) (rounds : Nat) (h : a.Same b) :
    (decls.expandWithin rounds a).Fits (decls.expandWithin rounds b) := by
  induction rounds generalizing a b with
  | zero =>
    rw [expandWithin, expandWithin, ← Term.substitute_refs a, ← Term.substitute_refs b]
    exact (Term.Fits.substitute_of_same h fun name _ => .of_parts (.leaf rfl)).1
  | succ rounds ih =>
    refine (Term.Fits.substitute_of_same h fun name _ => ?_).1
    cases hget : decls.get? name with
    | none => exact .of_parts (.leaf rfl)
    | some shape => exact ih (.refl (hdecls name shape hget))

/-- A term with an expansion: it leads to no cycle, and has distinct keys. -/
structure Expands (decls : Declarations) (term : Term) : Prop where
  acyclic : decls.cycleIn? term = none
  wellKeyed : term.WellKeyed

theorem Expands.resolve (h : decls.Expands a) (hdecls : decls.WellKeyed) :
    decls.Expands (decls.resolve a) :=
  ⟨cycleIn?_resolve h.acyclic, hdecls.resolve h.wellKeyed⟩

theorem Expands.part {part : Term} (h : decls.Expands a) (hpart : part ∈ a.children) :
    decls.Expands part :=
  ⟨cycleIn?_of_mem_children h.acyclic hpart, h.wellKeyed.of_mem_children hpart⟩

/-- The second term is the expansion of the first one. -/
def ExpandsTo (decls : Declarations) (a b : Term) : Prop := decls.Expands a ∧ b = decls.expand a

/-- A resolved term has the shape of its expansion. -/
theorem Expands.shape (h : decls.Expands a) (hdecls : decls.WellKeyed) :
    Term.AlikeShape decls.ExpandsTo True (decls.resolve a) (decls.expand a) := by
  rw [← expand_resolve h.acyclic]
  by_cases hkind : (decls.resolve a).kind = .ref
  · cases hresolve : decls.resolve a with
    | ref name =>
      have hundeclared := resolved_resolve h.acyclic _ hresolve
      rw [expand_of_undeclared fun other hother => Term.mem_refs_ref.1 hother ▸ hundeclared]
      exact .ref name
    | _ =>
      rw [hresolve] at hkind
      cases hkind
  · obtain ⟨f, hf⟩ := decls.expand_eq_substitute
    have hparts := Term.AlikeShape.substitute f hkind fun _ => (h.resolve hdecls).part
    rw [← hf] at hparts
    exact hparts

/-- What fits within some levels has expansions that fit. -/
theorem fits_of_fitsWithin (hdecls : decls.WellKeyed) {levels : Nat} (ha : decls.Expands a)
    (hb : decls.Expands b) (h : decls.fitsWithin levels a b = true) :
    (decls.expand a).Fits (decls.expand b) := by
  induction levels generalizing a b with
  | zero => cases h
  | succ levels ih =>
    rw [fitsWithin, Bool.or_eq_true] at h
    rcases h with heq | hshape
    · rw [← expand_resolve ha.acyclic, ← expand_resolve hb.acyclic]
      have hx := hdecls.resolve ha.wellKeyed
      exact fits_expandWithin_of_same hdecls _ (.of_beq hx (hdecls.resolve hb.wellKeyed) heq)
    · have hcarries : ∀ xs ys, Term.Carries decls.ExpandsTo
          (fun p q => decls.fitsWithin levels p q = true) Term.Fits xs ys := by
        rintro xs ys p _ q _ _ _ ⟨hp, rfl⟩ ⟨hq, rfl⟩ hpq
        exact ih hp hq hpq
      exact .of_parts ((fitsBy_iff.2 (.inr hshape)).transport (ha.shape hdecls) (hb.shape hdecls)
        (hcarries _ _) (hcarries _ _))

/-- Expansions that fit are found to fit, if one of them has no more than so many levels. -/
theorem fitsWithin_of_fits (hdecls : decls.WellKeyed) {levels : Nat} (ha : decls.Expands a)
    (hb : decls.Expands b)
    (hlow : (decls.expand a).height ≤ levels ∨ (decls.expand b).height ≤ levels)
    (h : (decls.expand a).Fits (decls.expand b)) : decls.fitsWithin levels a b = true := by
  induction levels generalizing a b with
  | zero =>
    have := (decls.expand a).height_pos
    have := (decls.expand b).height_pos
    omega
  | succ levels ih =>
    have hcarries : ∀ {u v : Term}, u.height ≤ levels + 1 ∨ v.height ≤ levels + 1 →
        Term.Carries (flip decls.ExpandsTo) Term.Fits (fun p q => decls.fitsWithin levels p q = true)
          u.children v.children := by
      rintro u v hlow _ hu _ hv p q ⟨hp, rfl⟩ ⟨hq, rfl⟩ hpq
      have hleft := Term.height_lt_of_mem_children hu
      have hright := Term.height_lt_of_mem_children hv
      exact ih hp hq (by omega) hpq
    have hparts : Term.FitsBy (fun p q => decls.fitsWithin levels p q = true) (decls.resolve a)
        (decls.resolve b) :=
      (Term.fits_iff.1 h).transport (ha.shape hdecls).flip (hb.shape hdecls).flip (hcarries hlow)
        (hcarries hlow.symm)
    rw [fitsWithin, Bool.or_eq_true]
    refine (fitsBy_iff.1 hparts).imp_left fun heq => ?_
    rw [← heq.1]
    exact Term.Same.beq (.refl (hdecls.resolve ha.wellKeyed))

/-- Assignability is the plain relation between expansions: what is assignable has expansions that
fit, and if one of the expansions is not nested deeper than fitting looks, the terms are assignable
exactly if their expansions fit. Only the two terms must lead to no cycle; the table may have one. -/
theorem assignable_iff_fits_expand (hdecls : decls.WellKeyed) (ha : a.WellKeyed) (hb : b.WellKeyed)
    (hacyclic : decls.cycleIn? a = none) (hacyclic' : decls.cycleIn? b = none) :
    (decls.assignable a b = true → (decls.expand a).Fits (decls.expand b)) ∧
      (decls.Shallow a ∨ decls.Shallow b →
        (decls.assignable a b = true ↔ (decls.expand a).Fits (decls.expand b))) := by
  have hleft : decls.Expands a := ⟨hacyclic, ha⟩
  have hright : decls.Expands b := ⟨hacyclic', hb⟩
  have hsound : decls.assignable a b = true → (decls.expand a).Fits (decls.expand b) :=
    fits_of_fitsWithin hdecls hleft hright
  exact ⟨hsound, fun hlow => ⟨hsound, fitsWithin_of_fits hdecls hleft hright hlow⟩⟩

/-- A composite with an optional field, and beside it a name that reaches itself. -/
def options : Declarations :=
  ((∅ : Declarations).declare "Loop" (.seq [.ref "Loop"])).declare "Options"
    (.composite [⟨"size", .prim .number, {}⟩, ⟨"name", .prim .string, { optional := true }⟩])

theorem wellKeyed_options : options.WellKeyed :=
  (wellKeyed_empty.declare "Loop" (by simp)).declare "Options"
    (by simp [Composite.Distinct, Composite.keys, Term.prim])

/-- A composite may lack the optional field and have another one, but it may not lack the field that
is required. -/
theorem fits_options :
    options.cycleIn? (.ref "Loop") = some ⟨"Loop"⟩ ∧
      (Term.composite [⟨"size", .int 1, {}⟩, ⟨"shown", .bool true, {}⟩]).Fits
        (.composite [⟨"size", .prim .number, {}⟩, ⟨"name", .prim .string, { optional := true }⟩]) ∧
      ¬ (Term.composite [⟨"name", .text "a", {}⟩]).Fits
        (.composite [⟨"size", .prim .number, {}⟩, ⟨"name", .prim .string, { optional := true }⟩]) := by
  have hsized := assignable_iff_fits_expand (b := .ref "Options") wellKeyed_options
    (a := .composite [⟨"size", .int 1, {}⟩, ⟨"shown", .bool true, {}⟩])
    (by simp [Composite.Distinct, Composite.keys, Term.int, Term.bool]) trivial (by decide +kernel)
    (by decide +kernel)
  have hnamed := assignable_iff_fits_expand (b := .ref "Options") wellKeyed_options
    (a := .composite [⟨"name", .text "a", {}⟩]) (by simp [Composite.Distinct, Composite.keys])
    trivial (by decide +kernel) (by decide +kernel)
  refine ⟨by decide +kernel, hsized.1 (by decide +kernel), fun hfits => ?_⟩
  have hlow : (options.expand (.composite [⟨"name", .text "a", {}⟩])).height ≤ maxFitDepth + 1 := by
    decide +kernel
  have hassignable := (hnamed.2 (.inl hlow)).2 hfits
  revert hassignable
  decide +kernel

end Declarations

end Reshape
