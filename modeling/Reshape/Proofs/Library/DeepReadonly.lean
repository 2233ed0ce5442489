import Mathlib.Algebra.Order.BigOperators.Group.List
import Reshape.Proofs.Declarations.Expansion
import Reshape.Proofs.Library.UppercaseKeys
import Reshape.Proofs.Reduction.Conclusion
import Reshape.Proofs.Reduction.Termination

/-!
# Readonly throughout

A term that leads to no cycle is walked from composite to composite, through references too. The values
of a composite's fields have smaller expansions than the composite, so the walk comes to an end
(`Declarations.fields_induction`), and as many levels as the expansion has nodes are enough for it
(`Declarations.readonlyWithin_congr`).

`deep_readonly` is not checked for progress: it feeds every value back as it is, be it a reference to
something larger. By the same induction it goes the whole way, at a cost that the size of the
expansion bounds (`Library.deepReadonly_marks`).
-/

namespace Reshape

/-- The field readonly, with another value. -/
def Entry.freeze (f : Term → Term) (field : Entry Term) : Entry Term :=
  ⟨field.key, f field.value, ⟨true, field.modifiers.optional⟩⟩

theorem Term.sizeEntries_eq_sum (fields : Composite) :
    sizeEntries fields = (fields.map fun field => field.value.size).sum := by
  induction fields with
  | nil => rfl
  | cons field rest ih => rw [sizeEntries, ih, List.map_cons, List.sum_cons]

namespace Declarations

variable {decls : Declarations} {term : Term} {fields : Composite} {field : Entry Term}
  {levels levels' : Nat}

/-! ## From composite to composite -/

/-- The expansion of a composite is made of those of its values. -/
theorem size_expand_composite (hacyclic : decls.cycleIn? term = none)
    (hresolve : decls.resolve term = .composite fields) :
    (decls.expand term).size = 1 + (fields.map fun field => (decls.expand field.value).size).sum := by
  rw [← expand_resolve hacyclic, hresolve, expand_composite, Term.size, Term.sizeEntries_eq_sum,
    List.map_map]
  rfl

theorem size_expand_value_lt (hacyclic : decls.cycleIn? term = none)
    (hresolve : decls.resolve term = .composite fields) (hfield : field ∈ fields) :
    (decls.expand field.value).size < (decls.expand term).size := by
  have hle := List.single_le_sum (fun _ _ => Nat.zero_le _) _
    (List.mem_map_of_mem (f := fun field => (decls.expand field.value).size) hfield)
  rw [size_expand_composite hacyclic hresolve]
  omega

theorem cycleIn?_value (hacyclic : decls.cycleIn? term = none)
    (hresolve : decls.resolve term = .composite fields) (hfield : field ∈ fields) :
    decls.cycleIn? field.value = none :=
  cycleIn?_of_mem_children (hresolve ▸ cycleIn?_resolve hacyclic) (List.mem_map_of_mem hfield)

/-- What holds of the terms behind which there is no composite, and of one behind which there is if it
holds of the values in there, holds of every term that leads to no cycle. -/
@[elab_as_elim]
theorem fields_induction {P : (term : Term) → decls.cycleIn? term = none → Prop}
    (composite : ∀ term fields (hacyclic : decls.cycleIn? term = none)
      (hresolve : decls.resolve term = .composite fields),
      (∀ field (hfield : field ∈ fields), P field.value (cycleIn?_value hacyclic hresolve hfield)) →
      P term hacyclic)
    (other : ∀ term (hacyclic : decls.cycleIn? term = none),
      (∀ fields, decls.resolve term ≠ .composite fields) → P term hacyclic)
    (term : Term) (hacyclic : decls.cycleIn? term = none) : P term hacyclic := by
  by_cases hterm : ∃ fields, decls.resolve term = .composite fields
  · obtain ⟨fields, hresolve⟩ := hterm
    refine composite term fields hacyclic hresolve fun field hfield => ?_
    have hless := size_expand_value_lt hacyclic hresolve hfield
    exact fields_induction composite other field.value _
  · exact other term hacyclic (not_exists.1 hterm)
termination_by (decls.expand term).size

/-! ## Marking the fields -/

/-- The fields of the composite behind a term readonly, and those of the composites in there, down to
so many levels. -/
def readonlyWithin (decls : Declarations) : (levels : Nat) → Term → Term
  | 0, term => term
  | levels + 1, term =>
    match decls.resolve term with
    | .composite fields => .composite (fields.map (Entry.freeze (decls.readonlyWithin levels)))
    | _ => term

/-- The fields of all composites readonly. -/
def readonlyThroughout (decls : Declarations) (term : Term) : Term :=
  decls.readonlyWithin (decls.expand term).size term

theorem readonlyWithin_composite (hresolve : decls.resolve term = .composite fields) :
    decls.readonlyWithin (levels + 1) term =
      .composite (fields.map (Entry.freeze (decls.readonlyWithin levels))) := by
  rw [readonlyWithin, hresolve]

theorem readonlyWithin_other (hterm : ∀ fields, decls.resolve term ≠ .composite fields) :
    decls.readonlyWithin levels term = term := by
  cases levels with
  | zero => rfl
  | succ levels =>
    rw [readonlyWithin]
    split
    · rename_i fields hresolve
      exact absurd hresolve (hterm fields)
    · rfl

/-- More levels than the expansion has nodes make no difference. -/
theorem readonlyWithin_congr (hacyclic : decls.cycleIn? term = none)
    (hlevels : (decls.expand term).size ≤ levels) (hlevels' : (decls.expand term).size ≤ levels') :
    decls.readonlyWithin levels term = decls.readonlyWithin levels' term := by
  induction term, hacyclic using fields_induction generalizing levels levels' with
  | other term hacyclic hterm => rw [readonlyWithin_other hterm, readonlyWithin_other hterm]
  | composite term fields hacyclic hresolve ih =>
    have hpos := (decls.expand term).size_pos
    obtain ⟨levels, rfl⟩ : ∃ more, levels = more + 1 := ⟨levels - 1, by omega⟩
    obtain ⟨levels', rfl⟩ : ∃ more, levels' = more + 1 := ⟨levels' - 1, by omega⟩
    rw [readonlyWithin_composite hresolve, readonlyWithin_composite hresolve]
    refine congrArg _ (List.map_congr_left fun field hfield => ?_)
    have hless := size_expand_value_lt hacyclic hresolve hfield
    have henough : (decls.expand field.value).size ≤ levels := by omega
    have henough' : (decls.expand field.value).size ≤ levels' := by omega
    rw [Entry.freeze, Entry.freeze, ih field hfield henough henough']

theorem readonlyThroughout_composite (hacyclic : decls.cycleIn? term = none)
    (hresolve : decls.resolve term = .composite fields) :
    decls.readonlyThroughout term =
      .composite (fields.map (Entry.freeze decls.readonlyThroughout)) := by
  have hpos := (decls.expand term).size_pos
  obtain ⟨levels, hlevels⟩ : ∃ levels, (decls.expand term).size = levels + 1 :=
    ⟨(decls.expand term).size - 1, by omega⟩
  rw [readonlyThroughout, hlevels, readonlyWithin_composite hresolve]
  refine congrArg _ (List.map_congr_left fun field hfield => ?_)
  have hless := size_expand_value_lt hacyclic hresolve hfield
  have henough : (decls.expand field.value).size ≤ levels := by omega
  rw [Entry.freeze, Entry.freeze, readonlyThroughout,
    readonlyWithin_congr (cycleIn?_value hacyclic hresolve hfield) henough (Nat.le_refl _)]

theorem readonlyThroughout_other (hterm : ∀ fields, decls.resolve term ≠ .composite fields) :
    decls.readonlyThroughout term = term :=
  readonlyWithin_other hterm

theorem cycleIn?_readonlyThroughout (hacyclic : decls.cycleIn? term = none) :
    decls.cycleIn? (decls.readonlyThroughout term) = none := by
  induction term, hacyclic using fields_induction with
  | other term hacyclic hterm => rwa [readonlyThroughout_other hterm]
  | composite term fields hacyclic hresolve ih =>
    rw [readonlyThroughout_composite hacyclic hresolve]
    refine (cycleIn?_iff_children (by exact nofun)).2 ?_
    rw [Term.children, List.map_map]
    exact List.forall_mem_map.2 ih

/-- There is nothing left to be marked. -/
theorem readonlyThroughout_idem (hacyclic : decls.cycleIn? term = none) :
    decls.readonlyThroughout (decls.readonlyThroughout term) = decls.readonlyThroughout term := by
  induction term, hacyclic using fields_induction with
  | other term hacyclic hterm => rw [readonlyThroughout_other hterm, readonlyThroughout_other hterm]
  | composite term fields hacyclic hresolve ih =>
    have hmarked := cycleIn?_readonlyThroughout hacyclic
    rw [readonlyThroughout_composite hacyclic hresolve] at hmarked ⊢
    rw [readonlyThroughout_composite hmarked rfl, List.map_map]
    refine congrArg _ (List.map_congr_left fun field hfield => ?_)
    rw [Function.comp_apply, Entry.freeze, Entry.freeze, ih field hfield]

end Declarations

/-! ## The rule -/

/-- The cost is no more than so many steps and as many frames. -/
structure Cost.Within (cost : Cost) (bound : Nat) : Prop where
  steps : cost.steps ≤ bound
  depth : cost.depth ≤ bound

theorem Cost.Within.add {cost cost' : Cost} {bound bound' : Nat} (h : cost.Within bound)
    (h' : cost'.Within bound') : (cost + cost').Within (bound + bound') :=
  ⟨Nat.add_le_add h.steps h'.steps,
    max_le (Nat.le_add_right_of_le h.depth) (Nat.le_add_left_of_le h'.depth)⟩

namespace Library

variable {decls : Declarations} {term : Term} {fields : Composite}

/-- Every value is fed back, and its result takes its place in a field that is readonly. -/
def feedValue (field : Entry Term) : Plan (Option (Term × Modifiers)) :=
  .ask (.self field.value) fun value => .done (some (value, ⟨true, field.modifiers.optional⟩))

theorem mapValue_reduce (decls : Declarations) (captures : Captures) (field : Entry Term) :
    mapValue (Guard.holdsIfAny decls none) ((Template.reduce mappedValue).build decls) .add .keep
      captures field = feedValue field := by
  have hvalue : (captures.forField field.key field.value).lookup Captures.valueName =
      .ok field.value := by
    rw [Captures.lookup, Captures.get?_forField, if_pos rfl]
  simp only [mapValue, Guard.holdsIfAny, Template.build, mappedValue, hvalue, Plan.lift, Plan.pure_eq,
    Plan.done_bind, FlagEdit.apply, if_true]
  rfl

theorem build_mapFields_reduce (hresolve : decls.resolve term = .composite fields) :
    (Template.mapFields (.capture "obj") none none (.reduce mappedValue) .add .keep).build decls
        (objectOf term) =
      mapEach feedValue fields >>= fun mapped =>
        .done (.composite (Composite.insertAll [] mapped.kept)) := by
  have hobject : (Template.capture "obj").build decls (objectOf term) = .done term := rfl
  have heach : mapValue (Guard.holdsIfAny decls none) ((Template.reduce mappedValue).build decls) .add
      .keep (objectOf term) = feedValue := funext (mapValue_reduce decls (objectOf term))
  rw [Template.build, hobject, Plan.done_bind, hresolve, Term.needComposite, Plan.lift, Plan.done_bind,
    foldlM_mapField_keyless, heach, Plan.bind_assoc]
  rfl

/-- A step maps the fields of a composite, and any other term stays as it is. -/
theorem deepReadonly_step (decls : Declarations) (term : Term) :
    deepReadonly.step decls term = .note .armTried (match decls.resolve term with
      | .composite fields => .note .armTaken (mapEach feedValue fields >>= fun mapped =>
          .done (.done (.composite (Composite.insertAll [] mapped.kept))))
      | _ => .done (.done term)) := by
  have hstep : deepReadonly.step decls term = Arm.tryEach decls .input term
      [⟨anyComposite, none, .mapFields (.capture "obj") none none (.reduce mappedValue) .add .keep⟩] :=
    rfl
  have hguard : Guard.holdsIfAny decls none (objectOf term) = .done true := rfl
  rw [hstep, Arm.tryEach, captures?_anyComposite]
  cases hresolve : decls.resolve term with
  | composite fields =>
    simp only [Term.kind, if_true, hguard, Plan.done_bind, Arm.take, build_mapFields_reduce hresolve,
      Plan.bind_assoc]
    rfl
  | _ => rfl

/-- Fields whose values have answers become readonly fields with these. -/
theorem mapEach_feedValue_yields {rule : Rule} {input : Term} {result : Term → Term} (bound : Term → Nat)
    (h : ∀ field ∈ fields, ∃ cost, (Request.self field.value).Yields decls rule input
      (result field.value) cost ∧ cost.Within (bound field.value)) :
    ∃ mapped cost, (mapEach feedValue fields).Yields decls rule input mapped cost ∧
      mapped.kept = fields.map (Entry.freeze result) ∧
      cost.Within (fields.map fun field => bound field.value).sum := by
  induction fields with
  | nil => exact ⟨[], 0, Plan.yields_done.2 ⟨rfl, rfl⟩, rfl, Nat.zero_le _, Nat.zero_le _⟩
  | cons field rest ih =>
    obtain ⟨⟨cost₁, hvalue, hbound₁⟩, hrest⟩ := List.forall_mem_cons.1 h
    obtain ⟨mapped, cost₂, hmapped, hkept, hbound₂⟩ := ih hrest
    have hfield : (feedValue field).Yields decls rule input
        (some (result field.value, ⟨true, field.modifiers.optional⟩)) cost₁ :=
      Plan.yields_ask.2 ⟨_, cost₁, 0, hvalue, Plan.yields_done.2 ⟨rfl, rfl⟩, (add_zero cost₁).symm⟩
    refine ⟨_, cost₁ + cost₂, Plan.yields_mapEach_cons.2 ⟨_, mapped, cost₁, cost₂, hfield, hmapped,
      rfl, rfl⟩, ?_, ?_⟩
    · rw [List.map_cons, ← hkept]
      rfl
    · rw [List.map_cons, List.sum_cons]
      exact hbound₁.add hbound₂

/-- The whole term is walked, within as many steps and frames as its expansion has nodes. -/
theorem deepReadonly_yields (hdecls : decls.WellKeyed) (hterm : term.WellKeyed)
    (hacyclic : decls.cycleIn? term = none) :
    ∃ cost, deepReadonly.Yields decls term (decls.readonlyThroughout term) cost ∧
      cost.nested.Within (decls.expand term).size := by
  induction term, hacyclic using Declarations.fields_induction with
  | other term hacyclic hother =>
    have hpos := (decls.expand term).size_pos
    refine ⟨_, .of_done 0 ?_, ⟨hpos, hpos⟩⟩
    have hstep : deepReadonly.step decls term = .note .armTried (.done (.done term)) := by
      rw [deepReadonly_step]
      split
      · rename_i fields hresolve
        exact absurd hresolve (hother fields)
      · rfl
    rw [hstep, Declarations.readonlyThroughout_other hother, Plan.yields_note, Plan.yields_done]
    exact ⟨rfl, rfl⟩
  | composite term fields hacyclic hresolve ih =>
    obtain ⟨hdistinct, hvalues⟩ := Term.wellKeyed_composite.1 (hresolve ▸ hdecls.resolve hterm)
    have hfed : ∀ field ∈ fields, ∃ cost, (Request.self field.value).Yields decls deepReadonly term
        (decls.readonlyThroughout field.value) cost ∧
          cost.Within (decls.expand field.value).size := by
      intro field hfield
      obtain ⟨cost, hyields, hbound⟩ := ih field hfield (hvalues field hfield)
      exact ⟨cost.nested, Request.yields_self.2 ⟨rfl, cost, hyields, rfl⟩, hbound⟩
    obtain ⟨mapped, cost, hmapped, hkept, hbound⟩ :=
      mapEach_feedValue_yields (fun value => (decls.expand value).size) hfed
    have hput : Composite.insertAll [] mapped.kept =
        fields.map (Entry.freeze decls.readonlyThroughout) := by
      rw [Mapped.insertAll_kept (hmapped.map_fst.symm ▸ hdistinct), hkept]
    refine ⟨cost.step, .of_done cost ?_, ?_⟩
    · rw [deepReadonly_step, hresolve, Plan.yields_note, Plan.yields_note,
        Declarations.readonlyThroughout_composite hacyclic hresolve, ← hput]
      exact Plan.yields_bind.2 ⟨mapped, cost, 0, hmapped, Plan.yields_done.2 ⟨rfl, rfl⟩,
        (add_zero cost).symm⟩
    · rw [Declarations.size_expand_composite hacyclic hresolve, Nat.add_comm]
      exact ⟨Nat.succ_le_succ hbound.steps, Nat.succ_le_succ hbound.depth⟩

/-- All composites that the term leads to are marked, and nothing else is: `deep_readonly` comes to the
term itself if there is no composite behind it, and else to that composite with its keys in their
order, every field readonly and as optional as it was, and every value treated so in turn. It does
within limits as large as the expansion of the term, and otherwise a limit is reached. A second time
changes nothing. -/
theorem deepReadonly_marks (hdecls : decls.WellKeyed) (hterm : term.WellKeyed)
    (haccepts : decls.Accepts term) :
    (∃ cost : Cost, cost.steps ≤ (decls.expand term).size ∧ cost.depth ≤ (decls.expand term).size ∧
      ∀ mode, deepReadonly.EndsWithin decls mode term (decls.readonlyThroughout term) cost) ∧
    ((∀ fields, decls.resolve term ≠ .composite fields) → decls.readonlyThroughout term = term) ∧
    (∀ fields, decls.resolve term = .composite fields →
      decls.readonlyThroughout term = .composite (fields.map fun field =>
        ⟨field.key, decls.readonlyThroughout field.value, ⟨true, field.modifiers.optional⟩⟩)) ∧
    decls.readonlyThroughout (decls.readonlyThroughout term) = decls.readonlyThroughout term := by
  have hacyclic := Declarations.needAcyclic_eq_ok_iff.1 haccepts
  refine ⟨?_, Declarations.readonlyThroughout_other, fun fields hresolve =>
    Declarations.readonlyThroughout_composite hacyclic hresolve,
    Declarations.readonlyThroughout_idem hacyclic⟩
  obtain ⟨cost, hyields, hbound⟩ := deepReadonly_yields hdecls hterm hacyclic
  exact ⟨cost.nested, hbound.steps, hbound.depth, hyields.endsWithin (Rule.vet_of_acyclic haccepts)⟩

/-- A composite behind a reference is put in the place of the reference and marked; a reference in a
sequence is left alone. -/
theorem deepReadonly_behind_reference :
    let decls := Declarations.declare ∅ "Point" (.composite [⟨"x", .int 1, ⟨false, true⟩⟩])
    ∃ s', deepReadonly.Ends decls
      (.composite [⟨"at", .ref "Point", {}⟩, ⟨"seen", .seq [.ref "Point"], {}⟩])
      (.ofMode (.custom 6 (some 6)))
      (.ok (.composite [⟨"at", .composite [⟨"x", .int 1, ⟨true, true⟩⟩], ⟨true, false⟩⟩,
        ⟨"seen", .seq [.ref "Point"], ⟨true, false⟩⟩])) s' := by
  intro decls
  have hdecls : decls.WellKeyed :=
    Declarations.wellKeyed_empty.declare "Point" (by simp [Composite.Distinct, Composite.keys, Term.int])
  have hterm : (Term.composite
      [⟨"at", .ref "Point", {}⟩, ⟨"seen", .seq [.ref "Point"], {}⟩]).WellKeyed := by
    simp [Composite.Distinct, Composite.keys]
  obtain ⟨⟨cost, hsteps, hdepth, hends⟩, -⟩ := deepReadonly_marks hdecls hterm
    (Declarations.needAcyclic_eq_ok_iff.2 (by decide +kernel))
  exact (hends _).ok_iff.2 ⟨hdepth, fun budget hbudget => Option.some.inj hbudget ▸ hsteps⟩

end Library

end Reshape
