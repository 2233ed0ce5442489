import Reshape.Instantiation
import Reshape.Proofs.Reduction.Fuel
import Reshape.Proofs.Template.Mapping

/-!
# Mapping fields one by one

A template that maps fields looks at one field after another, and a field sees nothing of the ones
before it: its filter, its key and its value are evaluated in captures of its own (`MapsTo`). What has
become of the fields is put together under the new keys, and there the fields meet: a key stands where
it came first and holds what came last (`Template.mapFields_folds`).
-/

namespace Reshape

namespace Plan

variable {σ α β : Type} {observe : Note → Eval σ Unit} {answer : Request → Eval σ Term} {s s' : σ}

theorem exec_lift_eq_ok_iff {o : Except Failure α} {value : α} :
    (Plan.lift o).exec observe answer s = .ok value s' ↔ o = .ok value ∧ s = s' := by
  cases o with
  | error failure =>
    constructor
    · rintro ⟨⟩
    · rintro ⟨⟨⟩, _⟩
  | ok found =>
    constructor
    · rintro ⟨⟩
      exact ⟨rfl, rfl⟩
    · rintro ⟨⟨⟩, rfl⟩
      rfl

theorem exec_bind_eq_ok_iff {plan : Plan α} {f : α → Plan β} {value : β} :
    (plan >>= f).exec observe answer s = .ok value s' ↔
      ∃ first s₁, plan.exec observe answer s = .ok first s₁ ∧
        (f first).exec observe answer s₁ = .ok value s' := by
  rw [exec_bind, Eval.bind_apply]
  cases plan.exec observe answer s with
  | ok first s₁ =>
    constructor
    · exact fun h => ⟨first, s₁, rfl, h⟩
    · rintro ⟨_, _, ⟨⟩, h⟩
      exact h
  | error halt s₁ =>
    constructor
    · rintro ⟨⟩
    · rintro ⟨_, _, ⟨⟩, _⟩

end Plan

/-- A field that a template keeps, with the key and the value that it gives it. -/
structure KeptField where
  field : Entry Term
  key : String
  value : Term

/-- What a kept field is put in as. -/
def KeptField.entry (readonly optional : FlagEdit) (kept : KeptField) : Entry Term :=
  ⟨kept.key, kept.value, ⟨readonly.apply kept.field.modifiers.readonly,
    optional.apply kept.field.modifiers.optional⟩⟩

section

variable {σ : Type} (observe : Note → Eval σ Unit) (answer : Request → Eval σ Term)
  (decls : Declarations) (filter : Option Guard) (key : Option Template) (value : Template)

/-- What comes of a field in the captures inside of it: nothing if the filter does not hold or the key is
`never`, and else the new key, which is the old one if there is no template for it, and the new value. -/
inductive MapsTo (inner : Captures) (field : Entry Term) (s : σ) : Option KeptField → σ → Prop
  | filtered {s' : σ}
      (hfilter : (Guard.holdsIfAny decls filter inner).exec observe answer s = .ok false s') :
      MapsTo inner field s none s'
  | unnamed {s₁ s' : σ} {built : Term}
      (hfilter : (Guard.holdsIfAny decls filter inner).exec observe answer s = .ok true s₁)
      (hkey : (Template.buildOption decls key inner).exec observe answer s₁ = .ok (some built) s')
      (hnever : decls.resolve built = .never) :
      MapsTo inner field s none s'
  | kept {s₁ s₂ s' : σ} {built : Option Term} {newKey : String} {newValue : Term}
      (hfilter : (Guard.holdsIfAny decls filter inner).exec observe answer s = .ok true s₁)
      (hkey : (Template.buildOption decls key inner).exec observe answer s₁ = .ok built s₂)
      (hnamed : built.elim (newKey = field.key) fun term => decls.resolve term = .text newKey)
      (hvalue : (value.build decls inner).exec observe answer s₂ = .ok newValue s') :
      MapsTo inner field s (some ⟨field, newKey, newValue⟩) s'

/-- What comes of fields that are looked at one after another, each in captures of its own: those that
are kept. -/
inductive MapsEach (captures : Captures) : List (Entry Term) → σ → List KeptField → σ → Prop
  | nil {s : σ} : MapsEach captures [] s [] s
  | dropped {field : Entry Term} {rest : List (Entry Term)} {s s₁ s' : σ} {kept : List KeptField}
      (hfirst : MapsTo observe answer decls filter key value (captures.forField field.key field.value)
        field s none s₁)
      (hrest : MapsEach captures rest s₁ kept s') :
      MapsEach captures (field :: rest) s kept s'
  | kept {field : Entry Term} {rest : List (Entry Term)} {s s₁ s' : σ} {item : KeptField}
      {kept : List KeptField}
      (hfirst : MapsTo observe answer decls filter key value (captures.forField field.key field.value)
        field s (some item) s₁)
      (hrest : MapsEach captures rest s₁ kept s') :
      MapsEach captures (field :: rest) s (item :: kept) s'

end

section

variable {σ : Type} {observe : Note → Eval σ Unit} {answer : Request → Eval σ Term}
  {decls : Declarations} {filter : Option Guard} {key : Option Template} {value : Template}
  {captures : Captures} {field : Entry Term} {fields : List (Entry Term)} {kept : List KeptField}
  {s s' : σ}

/-- The fields that are kept are some of those looked at, in order. -/
theorem MapsEach.sublist (h : MapsEach observe answer decls filter key value captures fields s kept s') :
    (kept.map KeptField.field).Sublist fields := by
  induction h with
  | nil => exact .slnil
  | dropped _ _ ih => exact ih.cons _
  | kept hfirst _ ih =>
    cases hfirst
    exact ih.cons_cons _

theorem Term.needKey_eq_ok_none_iff {old : String} {built : Option Term} :
    needKey old built = .ok none ↔ built = some .never := by
  unfold needKey
  split <;> simp_all [Term.never, Term.prim]

theorem Term.needKey_eq_ok_some_iff {old newKey : String} {built : Option Term} :
    needKey old built = .ok (some newKey) ↔
      built.elim (newKey = old) fun term => term = .text newKey := by
  unfold needKey
  split <;> simp_all [eq_comm]

theorem Term.needComposite_eq_ok_iff {term : Term} {fields : Composite} :
    term.needComposite = .ok fields ↔ term = .composite fields := by
  unfold needComposite
  split <;> simp_all

/-- A field is put into what there is as what comes of it, and no other way. -/
theorem mapField_exec_iff {readonly optional : FlagEdit} {mapped after : Composite} :
    (mapField decls (Guard.holdsIfAny decls filter) (Template.buildOption decls key) (value.build decls)
        readonly optional captures mapped field).exec observe answer s = .ok after s' ↔
      ∃ new, MapsTo observe answer decls filter key value (captures.forField field.key field.value)
          field s new s' ∧
        after = mapped.insertAll (new.toList.map (KeptField.entry readonly optional)) := by
  rw [mapField, Plan.exec_bind_eq_ok_iff]
  constructor
  · rintro ⟨_ | _, s₁, hfilter, h⟩
    · cases h
      exact ⟨none, .filtered hfilter, rfl⟩
    · obtain ⟨built, s₂, hkey, h⟩ := Plan.exec_bind_eq_ok_iff.1 h
      obtain ⟨newKey, _, hlift, h⟩ := Plan.exec_bind_eq_ok_iff.1 h
      obtain ⟨hneed, rfl⟩ := Plan.exec_lift_eq_ok_iff.1 hlift
      cases newKey with
      | none =>
        cases h
        obtain ⟨term, rfl, hnever⟩ := Option.map_eq_some_iff.1 (Term.needKey_eq_ok_none_iff.1 hneed)
        exact ⟨none, .unnamed hfilter hkey hnever, rfl⟩
      | some newKey =>
        obtain ⟨newValue, s₃, hvalue, h⟩ := Plan.exec_bind_eq_ok_iff.1 h
        cases h
        refine ⟨some ⟨field, newKey, newValue⟩, .kept hfilter hkey ?_ hvalue, rfl⟩
        have hnamed := Term.needKey_eq_ok_some_iff.1 hneed
        cases built <;> exact hnamed
  · rintro ⟨new, hfield, rfl⟩
    cases hfield with
    | filtered hfilter => exact ⟨false, s', hfilter, rfl⟩
    | unnamed hfilter hkey hnever =>
      have hneed : Term.needKey field.key (some (decls.resolve _)) = .ok none :=
        Term.needKey_eq_ok_none_iff.2 (congrArg some hnever)
      refine ⟨true, _, hfilter, Plan.exec_bind_eq_ok_iff.2 ⟨_, s', hkey, ?_⟩⟩
      exact Plan.exec_bind_eq_ok_iff.2 ⟨none, s', Plan.exec_lift_eq_ok_iff.2 ⟨hneed, rfl⟩, rfl⟩
    | @kept s₁ s₂ _ built newKey newValue hfilter hkey hnamed hvalue =>
      have hneed : Term.needKey field.key (built.map decls.resolve) = .ok (some newKey) := by
        rw [Term.needKey_eq_ok_some_iff]
        cases built <;> exact hnamed
      refine ⟨true, s₁, hfilter, Plan.exec_bind_eq_ok_iff.2 ⟨built, s₂, hkey, ?_⟩⟩
      refine Plan.exec_bind_eq_ok_iff.2 ⟨some newKey, s₂, Plan.exec_lift_eq_ok_iff.2 ⟨hneed, rfl⟩, ?_⟩
      exact Plan.exec_bind_eq_ok_iff.2 ⟨newValue, s', hvalue, rfl⟩

/-- Fields are put into what there is as what comes of them one after another. -/
theorem foldlM_mapField_exec_iff {readonly optional : FlagEdit} {mapped after : Composite} :
    (fields.foldlM (mapField decls (Guard.holdsIfAny decls filter) (Template.buildOption decls key)
        (value.build decls) readonly optional captures) mapped).exec observe answer s = .ok after s' ↔
      ∃ kept, MapsEach observe answer decls filter key value captures fields s kept s' ∧
        after = mapped.insertAll (kept.map (KeptField.entry readonly optional)) := by
  induction fields generalizing mapped after s with
  | nil =>
    constructor
    · rintro ⟨⟩
      exact ⟨[], .nil, rfl⟩
    · rintro ⟨_, ⟨⟩, rfl⟩
      rfl
  | cons field rest ih =>
    rw [List.foldlM_cons, Plan.exec_bind_eq_ok_iff]
    constructor
    · rintro ⟨_, s₁, hfirst, hrest⟩
      obtain ⟨new, hnew, rfl⟩ := mapField_exec_iff.1 hfirst
      obtain ⟨kept, hkept, rfl⟩ := ih.1 hrest
      cases new with
      | none => exact ⟨kept, .dropped hnew hkept, rfl⟩
      | some item => exact ⟨item :: kept, .kept hnew hkept, rfl⟩
    · rintro ⟨_, hkept, rfl⟩
      cases hkept with
      | dropped hnew hkept =>
        exact ⟨_, _, mapField_exec_iff.2 ⟨none, hnew, rfl⟩, ih.2 ⟨_, hkept, rfl⟩⟩
      | kept hnew hkept =>
        exact ⟨_, _, mapField_exec_iff.2 ⟨some _, hnew, rfl⟩, ih.2 ⟨_, hkept, rfl⟩⟩

end

/-- Mapping comes to a result exactly if the source comes to a composite and something comes of each of
its fields. -/
theorem Template.mapFields_exec_iff {σ : Type} {observe : Note → Eval σ Unit}
    {answer : Request → Eval σ Term} {decls : Declarations} {source value : Template}
    {key : Option Template} {filter : Option Guard} {readonly optional : FlagEdit} {captures : Captures}
    {s s' : σ} {result : Term} :
    ((mapFields source key filter value readonly optional).build decls captures).exec observe answer s =
        .ok result s' ↔
      ∃ term s₁ fields kept, (source.build decls captures).exec observe answer s = .ok term s₁ ∧
        decls.resolve term = .composite fields ∧
        MapsEach observe answer decls filter key value captures fields s₁ kept s' ∧
        result = .composite (Composite.ofList (kept.map (KeptField.entry readonly optional))) := by
  rw [build, Plan.exec_bind_eq_ok_iff]
  constructor
  · rintro ⟨term, s₁, hsource, h⟩
    obtain ⟨fields, _, hlift, h⟩ := Plan.exec_bind_eq_ok_iff.1 h
    obtain ⟨hneed, rfl⟩ := Plan.exec_lift_eq_ok_iff.1 hlift
    obtain ⟨mapped, _, hfold, h⟩ := Plan.exec_bind_eq_ok_iff.1 h
    cases h
    obtain ⟨kept, hkept, rfl⟩ := foldlM_mapField_exec_iff.1 hfold
    exact ⟨term, s₁, fields, kept, hsource, Term.needComposite_eq_ok_iff.1 hneed, hkept, rfl⟩
  · rintro ⟨term, s₁, fields, kept, hsource, hfields, hkept, rfl⟩
    have hneed := Term.needComposite_eq_ok_iff.2 hfields
    refine ⟨term, s₁, hsource, Plan.exec_bind_eq_ok_iff.2 ⟨fields, s₁, ?_, ?_⟩⟩
    · exact Plan.exec_lift_eq_ok_iff.2 ⟨hneed, rfl⟩
    · exact Plan.exec_bind_eq_ok_iff.2 ⟨_, s', foldlM_mapField_exec_iff.2 ⟨kept, hkept, rfl⟩, rfl⟩

/-- Mapping fields puts together what comes of them. Where the source comes to a composite and the
filter, the key and the value of each field come to something one after another, in captures that bind
the field's key and value in place of outer ones and nothing else, the template builds a composite. Its
keys are those that kept fields got, each once and in the order in which they first came. Under a key
stands the last of the kept fields that got it, with its value, and with its flags as they were but for
those that are added or removed. -/
theorem Template.mapFields_folds {σ : Type} (observe : Note → Eval σ Unit)
    (answer : Request → Eval σ Term) (decls : Declarations) (source value : Template)
    (key : Option Template) (filter : Option Guard) (readonly optional : FlagEdit) (captures : Captures)
    (s s₁ s' : σ) (term : Term) (fields : Composite) (kept : List KeptField)
    (hsource : (source.build decls captures).exec observe answer s = .ok term s₁)
    (hfields : decls.resolve term = .composite fields)
    (hkept : MapsEach observe answer decls filter key value captures fields s₁ kept s') :
    (∃ out : Composite,
      ((mapFields source key filter value readonly optional).build decls captures).exec observe answer s =
        .ok (.composite out) s' ∧
      out.keys = (kept.map KeptField.key).eraseDups ∧ out.keys.Nodup ∧
      ∀ name, out.get? name =
        (kept.findRev? (·.key == name)).map (KeptField.entry readonly optional)) ∧
    (kept.map KeptField.field).Sublist fields ∧
    (∀ item ∈ kept,
      (readonly = .keep →
        (item.entry readonly optional).modifiers.readonly = item.field.modifiers.readonly) ∧
      (optional = .keep →
        (item.entry readonly optional).modifiers.optional = item.field.modifiers.optional)) ∧
    ∀ (field : Entry Term) (name : String), (captures.forField field.key field.value).get? name =
      if name = Captures.valueName then some field.value
      else if name = Captures.keyName then some (.text field.key)
      else captures.get? name := by
  refine ⟨⟨Composite.ofList (kept.map (KeptField.entry readonly optional)), ?_, ?_, ?_, ?_⟩,
    hkept.sublist, fun item _ => ⟨?_, ?_⟩, fun field name => ?_⟩
  · exact mapFields_exec_iff.2 ⟨term, s₁, fields, kept, hsource, hfields, hkept, rfl⟩
  · rw [Composite.keys_ofList, List.map_map]
    rfl
  · exact Composite.distinct_ofList _
  · intro name
    rw [Composite.get?_ofList, ← List.map_reverse, List.find?_map, List.findRev?_eq_find?_reverse]
    rfl
  · rintro rfl
    rfl
  · rintro rfl
    rfl
  · rw [Captures.get?_forField]
    simp only [eq_comm]

/-- Puts every field but one under what stands in it. -/
def swapping : Template :=
  .mapFields (.capture "given") (some (.capture "value"))
    (some (.negation (.equal (.capture "key") (.capture "skip")))) (.capture "key") .add .keep

/-- Fields for it, beside a `key` that no field sees. -/
def swappable : Captures :=
  .ofList [("skip", .text "e"), ("key", .text "outer"), ("given", .composite
    [⟨"a", .text "x", { optional := true }⟩, ⟨"b", .text "y", {}⟩, ⟨"c", .text "x", {}⟩,
      ⟨"d", .never, {}⟩, ⟨"e", .text "z", {}⟩])]

/-- Two fields go to one key, where the first of them stood and the last of them stays; one is dropped for
its key and one by the filter. -/
theorem swapping_folds :
    ∃ out : Composite,
      (swapping.build ∅ swappable).exec (fun _ => pure ()) (Request.answerOutside ∅) () =
        .ok (.composite out) () ∧
      out.keys = ["x", "y"] ∧ out.get? "x" = some ⟨"x", .text "c", { readonly := true }⟩ := by
  obtain ⟨⟨out, hexec, hkeys, -, hget⟩, -⟩ := Template.mapFields_folds (fun _ => pure ())
    (Request.answerOutside ∅) ∅ (.capture "given") (.capture "key") (some (.capture "value"))
    (some (.negation (.equal (.capture "key") (.capture "skip")))) .add .keep swappable () () () _ _
    [⟨⟨"a", .text "x", { optional := true }⟩, "x", .text "a"⟩,
      ⟨⟨"b", .text "y", {}⟩, "y", .text "b"⟩, ⟨⟨"c", .text "x", {}⟩, "x", .text "c"⟩] rfl rfl
    (.kept (.kept rfl rfl rfl rfl) (.kept (.kept rfl rfl rfl rfl) (.kept (.kept rfl rfl rfl rfl)
      (.dropped (.unnamed rfl rfl rfl) (.dropped (.filtered rfl) .nil)))))
  exact ⟨out, hexec, hkeys.trans (by decide), hget "x"⟩

end Reshape
