import Reshape.Proofs.Pattern.Equality

/-!
# Fitting, shape by shape

Whether terms fit each other is looked at shape by shape: shapes fit alike if their parts do
(`Declarations.FitTogether.shape`). Equal terms fit each other without being looked at, but
they also fit by their shapes, if they have parts (`Declarations.fitsShape_of_same`).
-/

namespace Reshape

namespace Term

mutual

/-- The number of levels of a term. -/
def height : Term → Nat
  | .seq items => heightAll items + 1
  | .text _ => 1
  | .composite entries => heightEntries entries + 1
  | .atom _ => 1
  | .apply _ args => heightAll args + 1
  | .function _ receiver params result =>
    max (heightOption receiver) (max (heightAll params) (height result)) + 1
  | .ref _ => 1
termination_by structural term => term

def heightAll : List Term → Nat
  | [] => 0
  | item :: rest => max (height item) (heightAll rest)
termination_by structural items => items

def heightEntries : List (Entry Term) → Nat
  | [] => 0
  | ⟨_, value, _⟩ :: rest => max (height value) (heightEntries rest)
termination_by structural entries => entries

def heightOption : Option Term → Nat
  | none => 0
  | some term => height term
termination_by structural term => term

end

theorem height_pos (x : Term) : 0 < x.height := by
  cases x <;> simp [height]

theorem height_le_heightAll {items : List Term} {x : Term} (h : x ∈ items) :
    x.height ≤ heightAll items := by
  induction h with
  | head => exact Nat.le_max_left _ _
  | tail _ _ ih => exact Nat.le_trans ih (Nat.le_max_right _ _)

theorem height_le_heightEntries {entries : List (Entry Term)} {x : Entry Term} (h : x ∈ entries) :
    x.value.height ≤ heightEntries entries := by
  induction h with
  | head => exact Nat.le_max_left _ _
  | tail _ _ ih => exact Nat.le_trans ih (Nat.le_max_right _ _)

/-- Parts have fewer levels than the whole. -/
theorem height_lt_of_mem_children {x part : Term} (h : part ∈ x.children) : part.height < x.height := by
  cases x with
  | seq xs | apply f xs => exact Nat.lt_succ_of_le (height_le_heightAll h)
  | composite xs =>
    obtain ⟨field, hfield, rfl⟩ := List.mem_map.1 h
    exact Nat.lt_succ_of_le (height_le_heightEntries hfield)
  | function k r ps t =>
    rw [height, Nat.lt_succ_iff]
    simp only [children, List.mem_append, List.mem_singleton, Option.mem_toList] at h
    rcases h with (h | h) | rfl
    · cases r with
      | none => cases h
      | some receiver =>
        cases h
        exact Nat.le_max_left _ _
    · exact Nat.le_trans (height_le_heightAll h)
        (Nat.le_trans (Nat.le_max_left _ _) (Nat.le_max_right _ _))
    · exact Nat.le_trans (Nat.le_max_right _ _) (Nat.le_max_right _ _)
  | text s | atom value | ref name => cases h

/-- Whether the term has no parts by its kind. -/
def isLeaf : Term → Bool
  | .text _ | .atom _ | .ref _ => true
  | _ => false

end Term

namespace Declarations

variable {decls : Declarations} {fits fits' : Term → Term → Bool} {x y : Term}

/-! ## Equal terms -/

/-- Lists that are equal position by position fit so. -/
theorem zip_all_of_same (fits : Term → Term → Bool) {xs ys : List Term} (h : List.Forall₂ Term.Same xs ys)
    (hfits : ∀ a ∈ xs, ∀ b ∈ ys, a.Same b → fits a b = true) :
    ((xs.zip ys).all fun (a, b) => fits a b) = true := by
  induction h with
  | nil => rfl
  | cons hab _ ih =>
    rw [List.zip_cons_cons, List.all_cons, Bool.and_eq_true]
    refine ⟨hfits _ List.mem_cons_self _ List.mem_cons_self hab, ih fun a ha b hb => ?_⟩
    exact hfits a (List.mem_cons_of_mem _ ha) b (List.mem_cons_of_mem _ hb)

theorem fitsEach_of_same {xs ys : List Term} (h : List.Forall₂ Term.Same xs ys)
    (hfits : ∀ a ∈ xs, ∀ b ∈ ys, a.Same b → fits a b = true) : fitsEach fits xs ys = true := by
  rw [fitsEach, zip_all_of_same fits h hfits, h.length_eq, beq_self_eq_true, Bool.and_self]

/-- Equal terms that have parts fit each other, if their equal parts do. -/
theorem fitsShape_of_same (h : x.Same y)
    (hfits : ∀ a ∈ x.children, ∀ b ∈ y.children, a.Same b → fits a b = true ∧ fits b a = true) :
    (x = y ∧ x.isLeaf = true) ∨ fitsShape fits x y = true := by
  have hy := h.right
  cases h.shape with
  | seq hitems =>
    exact .inr (fitsEach_of_same hitems fun a ha b hb hab => (hfits a ha b hb hab).1)
  | @composite xs ys hfields =>
    refine .inr (List.all_eq_true.2 fun target htarget => ?_)
    have hfield := hfields target.key
    rw [(Term.wellKeyed_composite.1 hy).1.get?_eq_some_iff.2 ⟨htarget, rfl⟩] at hfield
    generalize hget : xs.get? target.key = found at hfield
    cases hfield with
    | some hsame =>
      rename_i field
      have hleft : field.value ∈ (Term.composite xs).children :=
        List.mem_map_of_mem (List.mem_of_find?_eq_some hget)
      have hright : target.value ∈ (Term.composite ys).children := List.mem_map_of_mem htarget
      simp only [hsame.modifiers, (hfits _ hleft _ hright hsame.value).1]
      cases target.modifiers.optional <;> rfl
  | apply f hitems =>
    refine .inr ?_
    rw [fitsShape, fitsEach_of_same hitems fun a ha b hb hab => (hfits a ha b hb hab).1,
      beq_self_eq_true]
    rfl
  | @function k r r' ps ps' t t' hr hps ht =>
    refine .inr ?_
    simp only [Term.children] at hfits
    have hresult : fits t t' = true := (hfits t (by simp) t' (by simp) ht).1
    have hparams : ((ps.zip ps').all fun (mine, theirs) => fits theirs mine) = true :=
      zip_all_of_same (fun a b => fits b a) hps fun a ha b hb hab =>
        (hfits a (by simp [ha]) b (by simp [hb]) hab).2
    have hreceiver : fitsReceiver fits r r' = true := by
      cases hr with
      | none => rfl
      | @some a b hab => exact (hfits a (by simp) b (by simp) hab).2
    rw [fitsShape, hresult, hparams, hreceiver, hps.length_eq, beq_self_eq_true]
    simp
  | text | atom | ref => exact .inl ⟨rfl, rfl⟩

/-- On one level or more, equal terms fit each other. -/
theorem fitsWithin_of_same (hdecls : decls.WellKeyed) (levels : Nat) (h : x.Same y) :
    decls.fitsWithin (levels + 1) x y = true := by
  rw [fitsWithin, (h.resolve hdecls).beq, Bool.true_or]

/-! ## Terms that are alike -/

/-- On the elements of the lists and terms that are related to them, `fits` and `fits'` say the
same. -/
def FitTogether (related : Term → Term → Prop) (fits fits' : Term → Term → Bool)
    (xs ys : List Term) : Prop :=
  ∀ a ∈ xs, ∀ b ∈ ys, ∀ a' b', related a a' → related b b' → fits a b = fits' a' b'

section

variable {related : Term → Term → Prop} {xs xs' ys ys' : List Term}

theorem FitTogether.mono {more more' : List Term} (h : FitTogether related fits fits' more more')
    (hxs : xs ⊆ more) (hys : ys ⊆ more') : FitTogether related fits fits' xs ys :=
  fun a ha b hb => h a (hxs ha) b (hys hb)

theorem FitTogether.zip_all (h : FitTogether related fits fits' xs ys)
    (hxs : List.Forall₂ related xs xs') (hys : List.Forall₂ related ys ys') :
    ((xs.zip ys).all fun (a, b) => fits a b) = (xs'.zip ys').all fun (a, b) => fits' a b := by
  induction hxs generalizing ys ys' with
  | nil => rfl
  | cons hx _ ih =>
    cases hys with
    | nil => rfl
    | cons hy hys =>
      have hfirst := h _ List.mem_cons_self _ List.mem_cons_self _ _ hx hy
      have hrest := ih (h.mono (List.subset_cons_self _ _) (List.subset_cons_self _ _)) hys
      rw [List.zip_cons_cons, List.zip_cons_cons, List.all_cons, List.all_cons, hrest]
      exact congrArg (· && _) hfirst

theorem FitTogether.each (h : FitTogether related fits fits' xs ys)
    (hxs : List.Forall₂ related xs xs') (hys : List.Forall₂ related ys ys') :
    fitsEach fits xs ys = fitsEach fits' xs' ys' := by
  rw [fitsEach, fitsEach, h.zip_all hxs hys, hxs.length_eq, hys.length_eq]

theorem FitTogether.fields {xs xs' ys ys' : Composite}
    (h : FitTogether related fits fits' (xs.map (·.value)) (ys.map (·.value)))
    (hxs : ∀ key, Option.Rel (Entry.Alike related) (xs.get? key) (xs'.get? key))
    (hys : List.Forall₂ (Entry.Alike related) ys ys') :
    fitsFields fits xs ys = fitsFields fits' xs' ys' := by
  induction hys with
  | nil => rfl
  | @cons y y' rest rest' hy _ ih =>
    have hrest := ih (h.mono (List.Subset.refl _) (List.subset_cons_self _ _))
    rw [fitsFields, fitsFields, List.all_cons, List.all_cons]
    refine congrArg₂ (· && ·) ?_ hrest
    have hfield := hxs y.key
    rw [← hy.key, ← hy.modifiers]
    generalize hget : xs.get? y.key = x, xs'.get? y.key = x' at hfield
    cases hfield with
    | none => rfl
    | @some x x' hx =>
      have hmem : x.value ∈ xs.map (·.value) := List.mem_map_of_mem (List.mem_of_find?_eq_some hget)
      dsimp only
      rw [hx.modifiers, h _ hmem _ List.mem_cons_self _ _ hx.value hy.value]

theorem FitTogether.receiver {r r₁ t t₁ : Option Term}
    (h : FitTogether related fits fits' t.toList r.toList) (hr : Option.Rel related r r₁)
    (ht : Option.Rel related t t₁) : fitsReceiver fits r t = fitsReceiver fits' r₁ t₁ := by
  cases hr with
  | none => rfl
  | some hr =>
    cases ht with
    | none => rfl
    | some ht => exact h _ (Option.mem_toList.2 rfl) _ (Option.mem_toList.2 rfl) _ _ ht hr

/-- Shapes with related parts fit alike, if their parts do both ways round. -/
theorem FitTogether.shape {x x' y y' : Term} (h : FitTogether related fits fits' x.children y.children)
    (hflip : FitTogether related fits fits' y.children x.children)
    (hx : Term.AlikeShape related True x x') (hy : Term.AlikeShape related True y y') :
    fitsShape fits x y = fitsShape fits' x' y' := by
  cases hx with
  | @seq xs xs' hxs =>
    cases hy with
    | seq hys => exact h.each hxs hys
    | atom value => cases value <;> (try cases ‹Prim›) <;> rfl
    | _ => rfl
  | text s =>
    cases hy with
    | atom value => cases value <;> (try cases ‹Prim›) <;> rfl
    | _ => rfl
  | composite hxs _ =>
    cases hy with
    | composite _ hys => exact h.fields hxs (hys trivial)
    | atom value => cases value <;> (try cases ‹Prim›) <;> rfl
    | _ => rfl
  | atom value =>
    cases hy with
    | atom other => cases value <;> (try cases ‹Prim›) <;> cases other <;> (try cases ‹Prim›) <;> rfl
    | _ => cases value <;> (try cases ‹Prim›) <;> rfl
  | @apply f xs xs' hxs =>
    cases hy with
    | @apply g ys ys' hys =>
      have heach : fitsEach fits xs ys = fitsEach fits' xs' ys' := h.each hxs hys
      rw [fitsShape, fitsShape, heach]
    | atom value => cases value <;> (try cases ‹Prim›) <;> rfl
    | _ => rfl
  | @function k r r₁ ps ps₁ t t₁ hr hps ht =>
    cases hy with
    | @function k' r' r₁' ps' ps₁' t' t₁' hr' hps' ht' =>
      simp only [Term.children] at h hflip
      -- Receivers and parameters fit the other way round, so these two use `hflip`.
      have hreceiver : fitsReceiver fits r r' = fitsReceiver fits' r₁ r₁' :=
        FitTogether.receiver (hflip.mono (by simp) (by simp)) hr hr'
      have hparams : ((ps.zip ps').all fun (mine, theirs) => fits theirs mine) =
          (ps₁.zip ps₁').all fun (mine, theirs) => fits' theirs mine := by
        have hback : FitTogether related (fun a b => fits b a) (fun a b => fits' b a) ps ps' :=
          fun a ha b hb a' b' ha' hb' => hflip b (by simp [hb]) a (by simp [ha]) b' a' hb' ha'
        exact hback.zip_all hps hps'
      have hresult : fits t t' = fits' t₁ t₁' := h t (by simp) t' (by simp) _ _ ht ht'
      rw [fitsShape, fitsShape, hreceiver, hparams, hresult, hps.length_eq, hps'.length_eq]
    | atom value => cases value <;> (try cases ‹Prim›) <;> rfl
    | _ => rfl
  | ref name =>
    cases hy with
    | atom value => cases value <;> (try cases ‹Prim›) <;> rfl
    | _ => rfl

end

end Declarations

end Reshape
