import Reshape.Library.Composites
import Reshape.Proofs.Reduction.Equality

/-!
# Keys in upper case

The one rule of the library that builds keys puts the fields under their keys in upper case,
one after another (`Library.uppercaseKeys_step`). Where two keys become the same, the field
that comes last counts. So the order of the fields does not matter exactly as long as fields
whose keys become the same are equal otherwise (`Composite.Mergeable`).
-/

namespace Reshape

/-- The field under another key. -/
def Entry.rekey (f : String → String) (field : Entry Term) : Entry Term :=
  { field with key := f field.key }

theorem Entry.normal_eq_iff {x y : Entry Term} :
    x.normal = y.normal ↔
      x.key = y.key ∧ x.value.normal = y.value.normal ∧ x.modifiers = y.modifiers :=
  Entry.mk.injEq .. ▸ Iff.rfl

namespace Composite

variable {f : String → String} {xs ys : Composite}

/-- Fields whose keys become the same have equal values, and the same flags. -/
def Mergeable (f : String → String) (fields : Composite) : Prop :=
  ∀ x ∈ fields, ∀ y ∈ fields, f x.key = f y.key →
    (x.value == y.value) = true ∧ x.modifiers = y.modifiers

theorem exists_normal_eq (h : (Term.composite xs).Same (.composite ys)) {x : Entry Term} (hx : x ∈ xs) :
    ∃ y ∈ ys, y.normal = x.normal := by
  have hnormal := h.normal
  rw [Term.normal_composite, Term.normal_composite, Term.composite.injEq] at hnormal
  have hmem : x.normal ∈ Composite.normal ys :=
    hnormal ▸ (normal_perm xs).mem_iff.2 (List.mem_map_of_mem hx)
  exact List.mem_map.1 ((normal_perm ys).mem_iff.1 hmem)

/-- Fields that become the same have the same normal form apart from the key. -/
theorem Mergeable.normal_rekey_eq (h : xs.Mergeable f) (hxs : (Term.composite xs).WellKeyed)
    {x x' : Entry Term} (hx : x ∈ xs) (hx' : x' ∈ xs) (hkey : f x.key = f x'.key) :
    (x.rekey f).normal = (x'.rekey f).normal := by
  obtain ⟨hvalue, hmodifiers⟩ := h x hx x' hx' hkey
  have hwell := (Term.wellKeyed_composite.1 hxs).2
  have hnormal := (Term.beq_iff (hwell x hx) (hwell x' hx')).1 hvalue
  exact Entry.normal_eq_iff.2 ⟨hkey, hnormal, hmodifiers⟩

/-- The normal form of a field decides what it becomes. -/
theorem normal_rekey_congr {x y : Entry Term} (h : x.normal = y.normal) :
    (x.rekey f).normal = (y.rekey f).normal := by
  obtain ⟨hkey, hrest⟩ := Entry.normal_eq_iff.1 h
  exact Entry.normal_eq_iff.2 ⟨congrArg f hkey, hrest⟩

/-- What a field becomes is there for an equal composite too. -/
theorem mem_map_normal_rekeyed (hmerge : xs.Mergeable f)
    (h : (Term.composite xs).Same (.composite ys)) {field : Entry Term}
    (hfield : field ∈ ofList (xs.map (·.rekey f))) :
    field.normal ∈ (ofList (ys.map (·.rekey f))).map Entry.normal := by
  obtain ⟨x, hx, rfl⟩ := List.mem_map.1 (mem_of_mem_ofList hfield)
  obtain ⟨y, hy, hxy⟩ := exists_normal_eq h hx
  -- Of the fields of `ys` with the new key, another one than `y` may come last. Its counterpart
  -- in `xs` merges with `x`.
  obtain ⟨last, hlast, hkey⟩ := exists_mem_ofList (List.mem_map_of_mem (f := (·.rekey f)) hy)
  obtain ⟨y', hy', rfl⟩ := List.mem_map.1 (mem_of_mem_ofList hlast)
  obtain ⟨x', hx', hxy'⟩ := exists_normal_eq h.symm hy'
  have hkeys : f x.key = f x'.key := by
    rw [← (Entry.normal_eq_iff.1 hxy).1, (Entry.normal_eq_iff.1 hxy').1]
    exact hkey.symm
  refine List.mem_map.2 ⟨y'.rekey f, hlast, ?_⟩
  rw [← normal_rekey_congr hxy', hmerge.normal_rekey_eq h.left hx hx' hkeys]

theorem Mergeable.same (hmerge : xs.Mergeable f) (h : (Term.composite xs).Same (.composite ys)) :
    ys.Mergeable f := by
  intro y hy y' hy' hkey
  obtain ⟨x, hx, hxy⟩ := exists_normal_eq h.symm hy
  obtain ⟨x', hx', hxy'⟩ := exists_normal_eq h.symm hy'
  have hkeys : f x.key = f x'.key := by
    rw [(Entry.normal_eq_iff.1 hxy).1, (Entry.normal_eq_iff.1 hxy').1, hkey]
  have hnormal := hmerge.normal_rekey_eq h.left hx hx' hkeys
  rw [normal_rekey_congr hxy, normal_rekey_congr hxy'] at hnormal
  have hwell := (Term.wellKeyed_composite.1 h.right).2
  obtain ⟨-, hvalue, hmodifiers⟩ := Entry.normal_eq_iff.1 hnormal
  exact ⟨(Term.beq_iff (hwell y hy) (hwell y' hy')).2 hvalue, hmodifiers⟩

theorem wellKeyed_rekeyed (h : (Term.composite xs).WellKeyed) :
    (Term.composite (ofList (xs.map (·.rekey f)))).WellKeyed := by
  refine Term.wellKeyed_composite.2 ⟨distinct_ofList _, fun field hfield => ?_⟩
  obtain ⟨x, hx, rfl⟩ := List.mem_map.1 (mem_of_mem_ofList hfield)
  exact (Term.wellKeyed_composite.1 h).2 x hx

/-- Under their new keys the fields of equal composites are equal again. -/
theorem Mergeable.rekeyed (hmerge : xs.Mergeable f) (h : (Term.composite xs).Same (.composite ys)) :
    (Term.composite (ofList (xs.map (·.rekey f)))).Same
      (.composite (ofList (ys.map (·.rekey f)))) := by
  have hmap : ∀ {xs ys : Composite}, xs.Mergeable f → (Term.composite xs).Same (.composite ys) →
      (ofList (xs.map (·.rekey f))).map Entry.normal ⊆
        (ofList (ys.map (·.rekey f))).map Entry.normal := by
    intro xs ys hmerge h entry hentry
    obtain ⟨field, hfield, rfl⟩ := List.mem_map.1 hentry
    exact mem_map_normal_rekeyed hmerge h hfield
  refine ⟨wellKeyed_rekeyed h.left, wellKeyed_rekeyed h.right, ?_⟩
  rw [Term.normal_composite, Term.normal_composite, Term.composite.injEq, Composite.normal,
    Composite.normal, sortByKey_eq_iff (distinct_ofList _).map_normal,
    List.perm_ext_iff_of_nodup (distinct_ofList _).map_normal.nodup
      (distinct_ofList _).map_normal.nodup]
  exact fun entry => ⟨fun hentry => hmap hmerge h hentry,
    fun hentry => hmap (hmerge.same h) h.symm hentry⟩

end Composite

namespace Library

variable {decls : Declarations}

/-- The fields under their keys in upper case. -/
def upperKeyed (fields : Composite) : Term :=
  .composite (Composite.ofList (fields.map (·.rekey CaseOp.upper.apply)))

/-- A field that is mapped is put in under its key in upper case. -/
theorem mapField_upper (captures : Captures) (mapped : Composite) (field : Entry Term) :
    mapField decls (Guard.holdsIfAny decls none)
        (Template.buildOption decls (some (.recase .upper (.capture Captures.keyName))))
        (mappedValue.build decls) .keep .keep captures mapped field =
      .done (Composite.insert (field.rekey CaseOp.upper.apply) mapped) := by
  have hkey : (captures.forField field.key field.value).lookup Captures.keyName =
      .ok (.text field.key) := by
    rw [Captures.lookup, Captures.get?_forField, if_neg (by decide), if_pos rfl]
  have hvalue : (captures.forField field.key field.value).lookup Captures.valueName =
      .ok field.value := by
    rw [Captures.lookup, Captures.get?_forField, if_pos rfl]
  have htext : ∀ s, decls.resolve (.text s) = .text s := fun _ => rfl
  simp only [mapField, Guard.holdsIfAny, Template.buildOption, Template.build, mappedValue, hkey,
    hvalue, Plan.lift, Plan.pure_eq, Plan.done_bind, htext, Term.needText, Option.map_some,
    Term.needKey, FlagEdit.apply, if_true]
  rfl

theorem foldlM_mapField_upper (captures : Captures) (mapped fields : Composite) :
    fields.foldlM (mapField decls (Guard.holdsIfAny decls none)
        (Template.buildOption decls (some (.recase .upper (.capture Captures.keyName))))
        (mappedValue.build decls) .keep .keep captures) mapped =
      .done ((fields.map (·.rekey CaseOp.upper.apply)).foldl
        (fun fields entry => Composite.insert entry fields) mapped) := by
  induction fields generalizing mapped with
  | nil => rfl
  | cons field rest ih => rw [List.foldlM_cons, mapField_upper, Plan.done_bind, ih]; rfl

/-- What a pattern for any composite binds. -/
def objectOf (term : Term) : Captures := ⟨Table.set ∅ "obj" term⟩

theorem captures?_anyComposite (decls : Declarations) (term : Term) :
    anyComposite.captures? decls term =
      if (decls.resolve term).kind = .composite then some (objectOf term) else none := by
  show (if (decls.resolve term).kind = .composite then some ∅ else none).bind
    (Captures.bind? · "obj" term) = _
  split <;> rfl

/-- A step puts the fields of a composite under their keys in upper case, and any other term stays
as it is. -/
theorem uppercaseKeys_step (decls : Declarations) (term : Term) :
    uppercaseKeys.step decls term = .note .armTried (match decls.resolve term with
      | .composite fields => .note .armTaken (.done (.done (upperKeyed fields)))
      | _ => .done (.done term)) := by
  have hstep : uppercaseKeys.step decls term = Arm.tryEach decls .input term
      [⟨anyComposite, none, .mapFields (.capture "obj")
        (some (.recase .upper (.capture Captures.keyName))) none mappedValue .keep .keep⟩] := rfl
  have hobject : (objectOf term).lookup "obj" = .ok term := rfl
  have hguard : Guard.holdsIfAny decls none (objectOf term) = .done true := rfl
  rw [hstep, Arm.tryEach, captures?_anyComposite]
  cases hresolved : decls.resolve term with
  | composite fields =>
    simp only [Term.kind, if_true, hguard, Arm.take, Template.build, hobject, Plan.lift,
      Plan.done_bind, hresolved, Term.needComposite, foldlM_mapField_upper]
    rfl
  | _ => rfl

/-- `uppercase_keys` is reduced in lockstep on equal terms, as long as fields whose keys become the
same are equal otherwise. -/
def uppercaseKeysLockstep {decls : Declarations} (hdecls : decls.WellKeyed) : Lockstep decls where
  admits rule x y := rule = uppercaseKeys ∧ x.Same y ∧
    ∀ fields : Composite, decls.resolve x = .composite fields → fields.Mergeable CaseOp.upper.apply
  results := Term.Same
  aside _ := False
  aside_leaving _ := id
  step := by
    rintro _ x y ⟨rfl, hsame, hmerge⟩
    rw [uppercaseKeys_step, uppercaseKeys_step]
    have hresolved := hsame.resolve hdecls
    have hshape := hresolved.shape
    refine .note _ ?_
    generalize decls.resolve x = x' , decls.resolve y = y' at hresolved hshape hmerge
    cases hshape with
    | composite => exact .note _ (.done (.done ((hmerge _ rfl).rekeyed hresolved)))
    | _ => exact .done (.done hsame)
  feedback h hnext := by
    rw [Rule.admitFeedback, Rule.admitFeedback, h.2.1.size_eq, hnext.2.1.size_eq]
    exact .inl rfl

end Library

end Reshape
