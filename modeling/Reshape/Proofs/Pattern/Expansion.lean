import Reshape.Proofs.Declarations.Expansion
import Reshape.Proofs.Declarations.Fitting

/-!
# Terms with one expansion are alike

What a rule sees of a term is the shape that it stands for, so terms with one expansion are
alike (`Likeness.ofExpansion`). Whether terms fit each other is looked at down to a greatest
depth, and beyond it the answer depends on where the references stand. So the terms that are
settled are those whose expansions are not deeper (`Declarations.assignable_eq_of_sameExpansion`).
-/

namespace Reshape

namespace Declarations

variable {decls : Declarations} {x y : Term}

theorem partByPart_expand (decls : Declarations) : Term.PartByPart decls.expand where
  seq _ := expand_seq
  text := expand_text
  composite fields := ⟨fields.map decls.expandEntry, expand_composite⟩
  atom := expand_atom
  apply _ _ := expand_apply
  function _ _ _ _ := expand_function

/-- The terms have one expansion, and distinct keys. -/
abbrev SameExpansion (decls : Declarations) : Term → Term → Prop := Term.SameBy decls.expand

/-- Fields with one expansion are alike in order. -/
theorem forall₂_of_map_expandEntry {xs ys : Composite} (hxs : ∀ x ∈ xs, x.value.WellKeyed)
    (hys : ∀ y ∈ ys, y.value.WellKeyed) (h : xs.map decls.expandEntry = ys.map decls.expandEntry) :
    List.Forall₂ (Entry.Alike decls.SameExpansion) xs ys := by
  induction xs generalizing ys with
  | nil =>
    cases ys with
    | nil => exact .nil
    | cons y ys => cases h
  | cons x xs ih =>
    cases ys with
    | nil => cases h
    | cons y ys =>
      rw [List.forall_mem_cons] at hxs hys
      rw [List.map_cons, List.map_cons, List.cons.injEq, expandEntry, expandEntry, Entry.mk.injEq] at h
      obtain ⟨⟨hkey, hvalue, hmodifiers⟩, hrest⟩ := h
      exact .cons ⟨hkey, ⟨hxs.1, hys.1, hvalue⟩, hmodifiers⟩ (ih hxs.2 hys.2 hrest)

/-- Terms with one expansion stand for one shape, whose parts have one expansion again. -/
theorem SameExpansion.resolve {a b : Term} (hdecls : decls.WellKeyed) (hacyclic : decls.cycle? = none)
    (h : decls.SameExpansion a b) :
    Term.AlikeShape decls.SameExpansion True (decls.resolve a) (decls.resolve b) := by
  have hacyclic := cycleIn?_of_cycle? hacyclic
  have hresolved : decls.SameExpansion (decls.resolve a) (decls.resolve b) :=
    ⟨hdecls.resolve h.left, hdecls.resolve h.right, by
      rw [expand_resolve (hacyclic a), expand_resolve (hacyclic b), h.eq]⟩
  have hrefs : ∀ term name, decls.resolve term = .ref name →
      decls.expand (decls.resolve term) = decls.resolve term := by
    intro term name hname
    rw [hname]
    refine expand_of_undeclared fun other hother => ?_
    rw [Term.mem_refs_ref.1 hother]
    exact resolved_resolve (hacyclic term) name hname
  refine hresolved.shape (partByPart_expand decls) (hrefs a) (hrefs b) fun xs ys hxs hys => ?_
  rw [hxs, hys] at hresolved
  obtain ⟨hleft, hright, heq⟩ := hresolved
  rw [expand_composite, expand_composite, Term.composite.injEq] at heq
  exact .fields (forall₂_of_map_expandEntry (Term.wellKeyed_composite.1 hleft).2
    (Term.wellKeyed_composite.1 hright).2 heq)

/-- Composites whose fields are alike in order have one expansion. -/
theorem sameExpansion_composite {xs ys : Composite} (hxs : xs.Distinct)
    (h : List.Forall₂ (Entry.Alike decls.SameExpansion) xs ys) :
    decls.SameExpansion (.composite xs) (.composite ys) := by
  have hfields : xs.keys = ys.keys ∧ (∀ x ∈ xs, x.value.WellKeyed) ∧ (∀ y ∈ ys, y.value.WellKeyed) ∧
      xs.map decls.expandEntry = ys.map decls.expandEntry := by
    clear hxs
    induction h with
    | nil => exact ⟨rfl, List.forall_mem_nil _, List.forall_mem_nil _, rfl⟩
    | cons hxy _ ih =>
      obtain ⟨hkeys, hxs, hys, heq⟩ := ih
      refine ⟨?_, List.forall_mem_cons.2 ⟨hxy.value.left, hxs⟩,
        List.forall_mem_cons.2 ⟨hxy.value.right, hys⟩, ?_⟩
      · rw [Composite.keys, Composite.keys, List.map_cons, List.map_cons, hxy.key]
        exact congrArg (_ :: ·) hkeys
      · rw [List.map_cons, List.map_cons, heq, expandEntry, expandEntry, hxy.key, hxy.value.eq,
          hxy.modifiers]
  obtain ⟨hkeys, hleft, hright, heq⟩ := hfields
  refine ⟨Term.wellKeyed_composite.2 ⟨hxs, hleft⟩, Term.wellKeyed_composite.2 ⟨?_, hright⟩, ?_⟩
  · rw [Composite.Distinct, ← hkeys]
    exact hxs
  · rw [expand_composite, expand_composite, heq]

/-- The parts of a term are expanded in its expansion. -/
theorem expand_mem_children (decls : Declarations) {part : Term} (h : part ∈ x.children) :
    decls.expand part ∈ (decls.expand x).children := by
  cases x with
  | seq xs =>
    rw [expand_seq]
    exact List.mem_map_of_mem h
  | composite xs =>
    obtain ⟨field, hfield, rfl⟩ := List.mem_map.1 h
    rw [expand_composite]
    exact List.mem_map.2 ⟨decls.expandEntry field, List.mem_map_of_mem hfield, rfl⟩
  | apply f xs =>
    rw [expand_apply]
    exact List.mem_map_of_mem h
  | function k r ps t =>
    rw [expand_function]
    simp only [Term.children, List.mem_append, List.mem_singleton, Option.mem_toList] at h ⊢
    rcases h with (h | h) | rfl
    · exact .inl (.inl (Option.mem_map_of_mem _ h))
    · exact .inl (.inr (List.mem_map_of_mem h))
    · exact .inr rfl
  | text s | atom value | ref name => cases h

/-- The expansion of one of the terms has at most so many levels. -/
def LowOne (decls : Declarations) (levels : Nat) (x y : Term) : Prop :=
  (decls.expand x).height ≤ levels ∨ (decls.expand y).height ≤ levels

theorem LowOne.part {levels : Nat} {a b : Term} (h : decls.LowOne (levels + 1) x y)
    (ha : a ∈ x.children) (hb : b ∈ y.children) : decls.LowOne levels a b := by
  have hleft := Term.height_lt_of_mem_children (expand_mem_children decls ha)
  have hright := Term.height_lt_of_mem_children (expand_mem_children decls hb)
  exact h.imp (by omega) (by omega)

/-- Equal terms fit each other by their shape, or else what has the same expansions is equal. -/
theorem beq_or_fitsShape_of_same {related : Term → Term → Prop} (hdecls : decls.WellKeyed) {levels : Nat}
    {x' y' : Term} (hlow : decls.LowOne (levels + 1) x y) (h : x.Same y)
    (hx : Term.AlikeShape related True x x') (hy : Term.AlikeShape related True y y') :
    (x' == y') = true ∨ fitsShape (decls.fitsWithin levels) x y = true := by
  have hparts : ∀ a ∈ x.children, ∀ b ∈ y.children, a.Same b →
      decls.fitsWithin levels a b = true ∧ decls.fitsWithin levels b a = true := by
    intro a ha b hb hab
    have hpos : levels ≠ 0 := by
      rintro rfl
      have := Term.height_pos (decls.expand a)
      have := Term.height_pos (decls.expand b)
      exact (hlow.part ha hb).elim (by omega) (by omega)
    obtain ⟨fewer, rfl⟩ := Nat.exists_eq_add_one_of_ne_zero hpos
    exact ⟨fitsWithin_of_same hdecls fewer hab, fitsWithin_of_same hdecls fewer hab.symm⟩
  refine (fitsShape_of_same h hparts).imp_left ?_
  rintro ⟨rfl, hleaf⟩
  cases hx with
  | text | atom | ref =>
    cases hy
    exact h.beq
  | _ => cases hleaf

/-- Terms fit as other terms with the same expansions do, if one expansion is not too deep. -/
theorem fitsWithin_eq_of_sameExpansion (hdecls : decls.WellKeyed) (hacyclic : decls.cycle? = none)
    (levels : Nat) {a a' b b' : Term} (hlow : decls.LowOne levels a b) (ha : decls.SameExpansion a a')
    (hb : decls.SameExpansion b b') : decls.fitsWithin levels a b = decls.fitsWithin levels a' b' := by
  induction levels generalizing a a' b b' with
  | zero => rfl
  | succ levels ih =>
    have hall := cycleIn?_of_cycle? hacyclic
    have hx := ha.resolve hdecls hacyclic
    have hy := hb.resolve hdecls hacyclic
    have hx' := SameExpansion.resolve hdecls hacyclic ha.symm
    have hy' := SameExpansion.resolve hdecls hacyclic hb.symm
    have hlow₁ : decls.LowOne (levels + 1) (decls.resolve a) (decls.resolve b) := by
      rwa [LowOne, expand_resolve (hall a), expand_resolve (hall b)]
    have hlow₂ : decls.LowOne (levels + 1) (decls.resolve a') (decls.resolve b') := by
      rwa [LowOne, expand_resolve (hall a'), expand_resolve (hall b'), ← ha.eq, ← hb.eq]
    have hwell := And.intro (hdecls.resolve ha.left) (hdecls.resolve hb.left)
    have hwell' := And.intro (hdecls.resolve ha.right) (hdecls.resolve hb.right)
    rw [fitsWithin, fitsWithin]
    generalize decls.resolve a = x, decls.resolve b = y, decls.resolve a' = x', decls.resolve b' = y'
      at hx hy hx' hy' hlow₁ hlow₂ hwell hwell'
    -- One pair may be equal as it is written, and so accepted at once, where the other pair is
    -- not. But what is equal fits by its shape too, and the shapes of both pairs fit alike.
    have hshape : fitsShape (decls.fitsWithin levels) x y = fitsShape (decls.fitsWithin levels) x' y' := by
      refine FitTogether.shape (fun p hp q hq p' q' => ih (hlow₁.part hp hq)) ?_ hx hy
      exact fun p hp q hq p' q' => ih (hlow₁.part hq hp).symm
    have hforth := fun h => beq_or_fitsShape_of_same hdecls hlow₁ (.of_beq hwell.1 hwell.2 h) hx hy
    have hback := fun h => beq_or_fitsShape_of_same hdecls hlow₂ (.of_beq hwell'.1 hwell'.2 h) hx' hy'
    rw [← hshape] at hback ⊢
    rw [Bool.eq_iff_iff, Bool.or_eq_true, Bool.or_eq_true]
    exact ⟨fun h => h.elim hforth .inr, fun h => h.elim hback .inr⟩

theorem assignable_eq_of_sameExpansion (hdecls : decls.WellKeyed) (hacyclic : decls.cycle? = none)
    {a a' b b' : Term} (hlow : decls.LowOne (maxFitDepth + 1) a b) (ha : decls.SameExpansion a a')
    (hb : decls.SameExpansion b b') : decls.assignable a b = decls.assignable a' b' :=
  fitsWithin_eq_of_sameExpansion hdecls hacyclic _ hlow ha hb

/-- The expansion of the term is not deeper than fitting looks. -/
def Shallow (decls : Declarations) (term : Term) : Prop :=
  (decls.expand term).height ≤ maxFitDepth + 1

end Declarations

/-- Terms with one expansion are alike, and in the same order. The settled terms are the shallow
ones. -/
def Likeness.ofExpansion {decls : Declarations} (hdecls : decls.WellKeyed)
    (hacyclic : decls.cycle? = none) (mayShrink : Prop) : Likeness decls where
  alike := decls.SameExpansion
  inOrder := True
  settled := decls.Shallow
  mayShrink := mayShrink
  resolve h := h.resolve hdecls hacyclic
  join h hkind := .of_shape (Declarations.partByPart_expand decls) h hkind
  joinFields _ _ _ hxs h := Declarations.sameExpansion_composite hxs h
  settled_atom value := by
    rw [Declarations.Shallow, Declarations.expand_atom]
    exact Nat.succ_le_succ (Nat.zero_le _)
  fits hlow ha hb := Declarations.assignable_eq_of_sameExpansion hdecls hacyclic hlow ha hb

end Reshape
