import Reshape.Proofs.Term.Normal
import Reshape.Template.Build

/-!
# Mapping fields

A template that maps fields puts every field into the composite as soon as it is mapped. If
it keeps the keys, what a field becomes does not depend on the others, so the fields may be
mapped first and put together afterwards (`foldlM_mapField_keyless`), and what stays of
fields with distinct keys is put together as it is (`Mapped.insertAll_kept`).
-/

namespace Reshape

/-- What a field becomes where its key is kept: a value and flags, or nothing if the filter
does not hold. -/
def mapValue (filter : Captures → Plan Bool) (value : Captures → Plan Term)
    (readonly optional : FlagEdit) (captures : Captures) (field : Entry Term) :
    Plan (Option (Term × Modifiers)) := do
  let captures := captures.forField field.key field.value
  if ← filter captures then
    let newValue ← value captures
    return some (newValue, ⟨readonly.apply field.modifiers.readonly,
      optional.apply field.modifiers.optional⟩)
  else return none

/-- Fields with what each of them becomes. -/
abbrev Mapped := List (Entry Term × Option (Term × Modifiers))

/-- What each field becomes, one after another. -/
def mapEach (f : Entry Term → Plan (Option (Term × Modifiers))) : List (Entry Term) → Plan Mapped
  | [] => return []
  | field :: rest => do
    let new ← f field
    return (field, new) :: (← mapEach f rest)

/-- The fields that stay. -/
def Mapped.kept (mapped : Mapped) : Composite :=
  mapped.filterMap fun (field, new) => new.map fun (value, modifiers) => ⟨field.key, value, modifiers⟩

theorem mapField_keyless (decls : Declarations) (filter : Captures → Plan Bool)
    (value : Captures → Plan Term) (readonly optional : FlagEdit) (captures : Captures)
    (fields : Composite) (field : Entry Term) :
    mapField decls filter (Template.buildOption decls none) value readonly optional captures
        fields field =
      mapValue filter value readonly optional captures field >>= fun new =>
        .done (Composite.insertAll fields (Mapped.kept [(field, new)])) := by
  rw [mapField, mapValue, Plan.bind_assoc]
  congr 1
  funext holds
  cases holds with
  | false => rfl
  | true =>
    show (value _ >>= _) = (value _ >>= _) >>= _
    rw [Plan.bind_assoc]
    rfl

/-- Mapping fields and keeping their keys: each field becomes what it becomes whatever the
others do, and what stays is put together in the end. -/
theorem foldlM_mapField_keyless (decls : Declarations) (filter : Captures → Plan Bool)
    (value : Captures → Plan Term) (readonly optional : FlagEdit) (captures : Captures)
    (source : List (Entry Term)) (fields : Composite) :
    source.foldlM (mapField decls filter (Template.buildOption decls none) value readonly optional
        captures) fields =
      mapEach (mapValue filter value readonly optional captures) source >>= fun mapped =>
        .done (Composite.insertAll fields mapped.kept) := by
  induction source generalizing fields with
  | nil => rfl
  | cons field rest ih =>
    rw [List.foldlM_cons, mapField_keyless, mapEach, Plan.bind_assoc, Plan.bind_assoc]
    congr 1
    funext new
    rw [Plan.bind_assoc, Plan.done_bind, ih]
    congr 1
    funext mapped
    show Plan.done _ = Plan.done _
    cases new <;> rfl

namespace Mapped

theorem keys_kept_sublist (mapped : Mapped) :
    (Composite.keys mapped.kept).Sublist (Composite.keys (mapped.map (·.1))) := by
  induction mapped with
  | nil => exact .slnil
  | cons field rest ih =>
    obtain ⟨field, new⟩ := field
    cases new with
    | none => exact ih.cons field.key
    | some new => exact ih.cons_cons field.key

/-- Where keys are distinct, what stays is put together as it is. -/
theorem insertAll_kept {mapped : Mapped} (h : Composite.Distinct (mapped.map (·.1))) :
    Composite.insertAll [] mapped.kept = mapped.kept :=
  Composite.insertAll_eq_append (h.sublist mapped.keys_kept_sublist)

/-- The fields and what they become in normal form. -/
def normal (mapped : Mapped) : Mapped :=
  mapped.map fun (field, new) => (field.normal, new.map fun (value, modifiers) => (value.normal, modifiers))

theorem kept_normal (mapped : Mapped) : mapped.normal.kept = mapped.kept.map Entry.normal := by
  induction mapped with
  | nil => rfl
  | cons field rest ih =>
    obtain ⟨field, new⟩ := field
    cases new with
    | none => exact ih
    | some new => exact congrArg (_ :: ·) ih

theorem wellKeyed_of_mem_kept {mapped : Mapped} (h : ∀ item ∈ mapped, ∀ new ∈ item.2, new.1.WellKeyed) :
    ∀ entry ∈ mapped.kept, entry.value.WellKeyed := by
  intro entry hmem
  obtain ⟨item, hitem, hentry⟩ := List.mem_filterMap.1 hmem
  obtain ⟨new, hnew, rfl⟩ := Option.map_eq_some_iff.1 hentry
  exact h item hitem new hnew

/-- What stays of sorted fields is sorted. -/
theorem pairwise_kept {mapped : Mapped} (h : (mapped.map (·.1)).Pairwise (·.key ≤ ·.key)) :
    mapped.kept.Pairwise (·.key ≤ ·.key) :=
  List.pairwise_map.1 (List.Pairwise.sublist mapped.keys_kept_sublist (List.pairwise_map.2 h))

end Mapped

end Reshape
