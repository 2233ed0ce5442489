import Reshape.Proofs.Rule.Normal
import Reshape.Proofs.Template.Mapping
import Reshape.Reduction.Step

/-!
# Building and the order of fields

A step of a plain rule asks on normal forms for the normal forms of what it asks for, and
comes to the normal form of what it comes to; only where it maps fields it takes them in
another order. What follows depends on how plans are carried out. So the argument is given
once for every way to relate plans that respects how they are put together
(`Plan.Simulation`): such a relation holds between the plan of a template, a guard or a
step and the plan of its normal form (`Template.build_simulated`, `Rule.step_simulated`).
-/

namespace Reshape

/-! ## Values and their normal forms -/

/-- `y` is the normal form of `x`, whose composites have distinct keys. -/
def Term.Canonical (x y : Term) : Prop := x.WellKeyed ∧ y = x.normal

/-- The elements of `ys` are the normal forms of those of `xs`. -/
def Term.CanonicalAll (xs ys : List Term) : Prop := (∀ x ∈ xs, x.WellKeyed) ∧ ys = xs.map Term.normal

def Term.CanonicalOption (x y : Option Term) : Prop :=
  (∀ term ∈ x, term.WellKeyed) ∧ y = x.map Term.normal

/-- The values in `y` are the normal forms of those in `x`, with the same flags. -/
def Modifiers.CanonicalOption (x y : Option (Term × Modifiers)) : Prop :=
  (∀ new ∈ x, new.1.WellKeyed) ∧ y = x.map fun (value, modifiers) => (value.normal, modifiers)

/-- Steps to a result and its normal form, or to a term to go on with and its normal form. -/
inductive Step.Canonical : Step → Step → Prop where
  | done {x y : Term} : x.Canonical y → Step.Canonical (.done x) (.done y)
  | again {x y : Term} : x.Canonical y → Step.Canonical (.again x) (.again y)

/-! ## Relations between plans -/

/-- A way to relate plans, where the values that they come to are related: it respects how
plans are put together, relates requests for terms to those for their normal forms, and
lets the second plan map fields in another order. -/
structure Plan.Simulation where
  Rel : ∀ {α : Type}, (α → α → Prop) → Plan α → Plan α → Prop
  done : ∀ {α : Type} {R : α → α → Prop} {x y : α}, R x y → Rel R (.done x) (.done y)
  fail : ∀ {α : Type} {R : α → α → Prop} (failure failure' : Failure),
    Rel R (.fail failure) (.fail failure')
  note : ∀ {α : Type} {R : α → α → Prop} {p q : Plan α} (n : Note),
    Rel R p q → Rel R (.note n p) (.note n q)
  bind : ∀ {α β : Type} {R : α → α → Prop} {S : β → β → Prop} {p q : Plan α} {f g : α → Plan β},
    Rel R p q → (∀ x y, R x y → Rel S (f x) (g y)) → Rel S (p >>= f) (q >>= g)
  self : ∀ {next : Term}, next.WellKeyed →
    Rel Term.Canonical (.ask (.self next) .done) (.ask (.self next.normal) .done)
  call : ∀ {rule : Rule} {term : Term}, rule.Plain → term.WellKeyed →
    Rel Term.Canonical (.ask (.call rule term) .done) (.ask (.call rule.normal term.normal) .done)
  reorder : ∀ {R : Mapped → Mapped → Prop} {p : Plan Mapped}
    {g : Entry Term → Plan (Option (Term × Modifiers))} {ys zs : List (Entry Term)},
    Rel R p (mapEach g ys) → ys.Perm zs →
    Rel (fun as cs => ∃ bs, R as bs ∧ bs.Perm cs ∧ cs.map (·.1) = zs) p (mapEach g zs)

namespace Plan.Simulation

variable (sim : Plan.Simulation) {decls : Declarations}

/-! ## What is needed of a term -/

section

variable {x y : Term} (hdecls : decls.WellKeyed)

include hdecls

theorem needSeq (h : x.Canonical y) :
    sim.Rel Term.CanonicalAll (.lift (decls.resolve x).needSeq)
      (.lift (decls.normal.resolve y).needSeq) := by
  obtain ⟨hx, rfl⟩ := h
  have hwell := hdecls.resolve hx
  rw [Declarations.resolve_normal]
  cases hshape : decls.resolve x with
  | seq items =>
    rw [hshape] at hwell
    rw [Term.normal_seq]
    exact sim.done ⟨Term.wellKeyed_seq.1 hwell, rfl⟩
  | _ => exact sim.fail _ _

theorem needComposite (h : x.Canonical y) :
    sim.Rel (fun fields fields' => (Term.composite fields).WellKeyed ∧ fields' = Composite.normal fields)
      (.lift (decls.resolve x).needComposite) (.lift (decls.normal.resolve y).needComposite) := by
  obtain ⟨hx, rfl⟩ := h
  have hwell := hdecls.resolve hx
  rw [Declarations.resolve_normal]
  cases hshape : decls.resolve x with
  | composite fields =>
    rw [hshape] at hwell
    rw [Term.normal_composite]
    exact sim.done ⟨hwell, rfl⟩
  | _ => exact sim.fail _ _

omit hdecls

theorem needText (h : x.Canonical y) :
    sim.Rel Eq (.lift (decls.resolve x).needText) (.lift (decls.normal.resolve y).needText) := by
  rw [h.2, Declarations.resolve_normal]
  cases decls.resolve x with
  | text s => exact sim.done rfl
  | _ => exact sim.fail _ _

theorem needFragment (h : x.Canonical y) :
    sim.Rel Eq (.lift (decls.resolve x).needFragment) (.lift (decls.normal.resolve y).needFragment) := by
  rw [h.2, Declarations.resolve_normal]
  cases decls.resolve x with
  | text s => exact sim.done rfl
  | atom value =>
    cases value with
    | int n => exact sim.done rfl
    | bool b => cases b <;> exact sim.done rfl
    | _ => exact sim.fail _ _
  | _ => exact sim.fail _ _

theorem needLength (h : x.Canonical y) :
    sim.Rel Term.Canonical (.lift (decls.resolve x).needLength)
      (.lift (decls.normal.resolve y).needLength) := by
  rw [h.2, Declarations.resolve_normal]
  cases decls.resolve x with
  | text s => exact sim.done ⟨trivial, rfl⟩
  | seq items =>
    refine sim.done ⟨trivial, ?_⟩
    rw [Term.normalAll_eq, List.length_map]
    rfl
  | _ => exact sim.fail _ _

end

theorem lookup {captures : Captures} (h : captures.WellKeyed) (name : String) :
    sim.Rel Term.Canonical (.lift (captures.lookup name)) (.lift (captures.normal.lookup name)) := by
  rw [Captures.lookup, Captures.lookup, Captures.get?_normal]
  cases hget : captures.get? name with
  | none => exact sim.fail _ _
  | some term => exact sim.done ⟨h name term hget, rfl⟩

/-! ## Mapped fields -/

theorem mapEach_normal {f g : Entry Term → Plan (Option (Term × Modifiers))}
    {fields : List (Entry Term)}
    (h : ∀ field ∈ fields, sim.Rel Modifiers.CanonicalOption (f field) (g field.normal)) :
    sim.Rel (fun as bs => as.map (·.1) = fields ∧
        (∀ item ∈ as, ∀ new ∈ item.2, new.1.WellKeyed) ∧ bs = Mapped.normal as)
      (mapEach f fields) (mapEach g (fields.map Entry.normal)) := by
  induction fields with
  | nil => exact sim.done ⟨rfl, nofun, rfl⟩
  | cons field rest ih =>
    rw [List.forall_mem_cons] at h
    refine sim.bind h.1 fun x y hnew => sim.bind (ih h.2) fun as bs hrest => ?_
    obtain ⟨hwell, rfl⟩ := hnew
    obtain ⟨rfl, hwells, rfl⟩ := hrest
    exact sim.done ⟨rfl, List.forall_mem_cons.2 ⟨hwell, hwells⟩, rfl⟩

/-- Fields may be mapped in the order of their keys. What stays of them then is the normal
form of what stays otherwise. -/
theorem mapFields {decls' : Declarations} {filter filter' : Captures → Plan Bool}
    {value value' : Captures → Plan Term} {readonly optional : FlagEdit}
    {captures captures' : Captures} {fields : Composite} (hfields : (Term.composite fields).WellKeyed)
    (h : ∀ field ∈ fields, sim.Rel Modifiers.CanonicalOption
      (mapValue filter value readonly optional captures field)
      (mapValue filter' value' readonly optional captures' field.normal)) :
    sim.Rel Term.Canonical
      (fields.foldlM (mapField decls filter (Template.buildOption decls none) value readonly optional
        captures) [] >>= fun mapped => .done (.composite mapped))
      (fields.normal.foldlM (mapField decls' filter' (Template.buildOption decls' none) value' readonly
        optional captures') [] >>= fun mapped => .done (.composite mapped)) := by
  rw [foldlM_mapField_keyless, foldlM_mapField_keyless, Plan.bind_assoc, Plan.bind_assoc]
  have hdistinct := (Term.wellKeyed_composite.1 hfields).1
  refine sim.bind (sim.reorder (sim.mapEach_normal h) fields.normal_perm.symm) fun as cs hmapped => ?_
  obtain ⟨bs, ⟨has, hwell, rfl⟩, hperm, hcs⟩ := hmapped
  have hkept : Composite.Distinct as.kept := by
    refine Composite.Distinct.sublist ?_ as.keys_kept_sublist
    rw [has]
    exact hdistinct
  have hkept' : Composite.Distinct cs.kept := by
    refine Composite.Distinct.sublist ?_ cs.keys_kept_sublist
    rw [hcs]
    exact hdistinct.normal
  have hsorted : cs.kept.Pairwise (·.key ≤ ·.key) := by
    refine Mapped.pairwise_kept ?_
    rw [hcs]
    exact Composite.pairwise_sortByKey _
  have hsame : cs.kept = Composite.normal as.kept := by
    refine hkept'.eq_of_perm hsorted (Composite.pairwise_sortByKey _) ?_
    refine (hperm.symm.filterMap _).trans ?_
    show (Mapped.kept (Mapped.normal as)).Perm _
    rw [Mapped.kept_normal]
    exact (Composite.normal_perm as.kept).symm
  rw [Plan.done_bind, Plan.done_bind, Mapped.insertAll_kept (has ▸ hdistinct),
    Mapped.insertAll_kept (hcs ▸ hdistinct.normal)]
  refine sim.done ⟨Term.wellKeyed_composite.2 ⟨hkept, Mapped.wellKeyed_of_mem_kept hwell⟩, ?_⟩
  rw [Term.normal_composite, hsame]

/-! ## Templates -/

mutual

/-- What a template builds on normal forms is related to what it builds. -/
theorem build (hdecls : decls.WellKeyed) (template : Template)
    (ht : ∀ part ∈ template.parts, part.Plain) {captures : Captures} (hc : captures.WellKeyed) :
    sim.Rel Term.Canonical (template.build decls captures)
      (template.normal.build decls.normal captures.normal) := by
  match template with
  | .capture name => exact sim.lookup hc name
  | .literal term =>
    exact sim.done ⟨(ht _ List.mem_cons_self).wellKeyed term List.mem_cons_self, rfl⟩
  | .seq items =>
    simp only [Template.parts, List.forall_mem_cons] at ht
    refine sim.bind (buildItems hdecls items ht.2 hc) fun xs ys h => sim.done ?_
    obtain ⟨hwell, rfl⟩ := h
    exact ⟨Term.wellKeyed_seq.2 hwell, Term.normal_seq.symm⟩
  | .text pieces =>
    simp only [Template.parts, List.forall_mem_cons] at ht
    refine sim.bind (buildPieces hdecls pieces ht.2 hc) fun s s' h => sim.done ?_
    subst h
    exact ⟨trivial, rfl⟩
  | .recase op inner =>
    simp only [Template.parts, List.forall_mem_cons] at ht
    refine sim.bind (build hdecls inner ht.2 hc) fun x y h => ?_
    refine sim.bind (sim.needText h) fun s s' heq => sim.done ?_
    subst heq
    exact ⟨trivial, rfl⟩
  | .length inner =>
    simp only [Template.parts, List.forall_mem_cons] at ht
    exact sim.bind (build hdecls inner ht.2 hc) fun x y h => sim.needLength h
  | .apply head args =>
    simp only [Template.parts, List.forall_mem_cons] at ht
    refine sim.bind (buildAll hdecls args ht.2 hc) fun xs ys h => sim.done ?_
    obtain ⟨hwell, rfl⟩ := h
    exact ⟨Term.wellKeyed_apply.2 hwell, Term.normal_apply.symm⟩
  | .function kind receiver params result =>
    simp only [Template.parts, List.forall_mem_cons, List.forall_mem_append] at ht
    refine sim.bind (buildOption hdecls receiver ht.2.1.1 hc) fun r r' hreceiver => ?_
    refine sim.bind (build hdecls params ht.2.1.2 hc) fun p p' hparams => ?_
    refine sim.bind (sim.needSeq hdecls hparams) fun xs ys hitems => ?_
    refine sim.bind (build hdecls result ht.2.2 hc) fun v v' hresult => sim.done ?_
    obtain ⟨hr, rfl⟩ := hreceiver
    obtain ⟨hxs, rfl⟩ := hitems
    obtain ⟨hv, rfl⟩ := hresult
    exact ⟨Term.wellKeyed_function.2 ⟨hr, hxs, hv⟩, Term.normal_function.symm⟩
  | .mapFields source (some key) filter value readonly optional =>
    exact absurd (ht _ List.mem_cons_self).keyless Bool.noConfusion
  | .mapFields source none filter value readonly optional =>
    simp only [Template.parts, List.forall_mem_cons, List.forall_mem_append] at ht
    refine sim.bind (build hdecls source ht.2.1.1.1 hc) fun x y h => ?_
    refine sim.bind (sim.needComposite hdecls h) fun fields fields' hfields => ?_
    obtain ⟨hwell, rfl⟩ := hfields
    refine sim.mapFields hwell fun field hmem => ?_
    have hinner := hc.forField field.key ((Term.wellKeyed_composite.1 hwell).2 field hmem)
    rw [mapValue, mapValue, Captures.forField_normal]
    refine sim.bind (holdsIfAny hdecls filter ht.2.1.2 hinner) fun holds holds' heq => ?_
    subst heq
    cases holds with
    | false => exact sim.done ⟨nofun, rfl⟩
    | true =>
      refine sim.bind (build hdecls value ht.2.2 hinner) fun v v' h => sim.done ?_
      obtain ⟨hv, rfl⟩ := h
      refine ⟨fun new hnew => ?_, rfl⟩
      cases hnew
      exact hv
  | .reduce inner =>
    simp only [Template.parts, List.forall_mem_cons] at ht
    refine sim.bind (build hdecls inner ht.2 hc) fun x y h => ?_
    obtain ⟨hx, rfl⟩ := h
    exact sim.self hx
  | .call rule inner =>
    simp only [Template.parts, List.forall_mem_cons, List.forall_mem_append] at ht
    refine sim.bind (build hdecls inner ht.2.2 hc) fun x y h => ?_
    obtain ⟨hx, rfl⟩ := h
    exact sim.call ⟨ht.1.wellKeyed, ht.2.1⟩ hx
  | .undefined reason => exact sim.fail _ _
termination_by structural template

theorem buildItems (hdecls : decls.WellKeyed) (items : List (SeqItem Template))
    (ht : ∀ part ∈ Template.partsItems items, part.Plain) {captures : Captures}
    (hc : captures.WellKeyed) :
    sim.Rel Term.CanonicalAll (Template.buildItems decls items captures)
      (Template.buildItems decls.normal (Template.normalItems items) captures.normal) := by
  match items with
  | [] => exact sim.done ⟨nofun, rfl⟩
  | .element template :: rest =>
    simp only [Template.partsItems, List.forall_mem_append] at ht
    refine sim.bind (build hdecls template ht.1 hc) fun x y h => ?_
    refine sim.bind (buildItems hdecls rest ht.2 hc) fun xs ys hrest => sim.done ?_
    obtain ⟨hx, rfl⟩ := h
    obtain ⟨hxs, rfl⟩ := hrest
    exact ⟨List.forall_mem_cons.2 ⟨hx, hxs⟩, rfl⟩
  | .splice template :: rest =>
    simp only [Template.partsItems, List.forall_mem_append] at ht
    refine sim.bind (build hdecls template ht.1 hc) fun x y h => ?_
    refine sim.bind (sim.needSeq hdecls h) fun items items' hitems => ?_
    refine sim.bind (buildItems hdecls rest ht.2 hc) fun xs ys hrest => sim.done ?_
    obtain ⟨hitems, rfl⟩ := hitems
    obtain ⟨hxs, rfl⟩ := hrest
    rw [joinItems_eq, joinItems_eq, ← List.map_append]
    exact ⟨List.forall_mem_append.2 ⟨hitems, hxs⟩, rfl⟩
termination_by structural items

theorem buildPieces (hdecls : decls.WellKeyed) (pieces : List (TextPiece Template))
    (ht : ∀ part ∈ Template.partsPieces pieces, part.Plain) {captures : Captures}
    (hc : captures.WellKeyed) :
    sim.Rel Eq (Template.buildPieces decls pieces captures)
      (Template.buildPieces decls.normal (Template.normalPieces pieces) captures.normal) := by
  match pieces with
  | [] => exact sim.done rfl
  | .literal s :: rest =>
    exact sim.bind (buildPieces hdecls rest ht hc) fun t t' h => sim.done (h ▸ rfl)
  | .insert template :: rest =>
    simp only [Template.partsPieces, List.forall_mem_append] at ht
    refine sim.bind (build hdecls template ht.1 hc) fun x y h => ?_
    refine sim.bind (sim.needFragment h) fun s s' hs => ?_
    refine sim.bind (buildPieces hdecls rest ht.2 hc) fun t t' ht => sim.done ?_
    rw [hs, ht]
termination_by structural pieces

theorem buildAll (hdecls : decls.WellKeyed) (templates : List Template)
    (ht : ∀ part ∈ Template.partsAll templates, part.Plain) {captures : Captures}
    (hc : captures.WellKeyed) :
    sim.Rel Term.CanonicalAll (Template.buildAll decls templates captures)
      (Template.buildAll decls.normal (Template.normalAll templates) captures.normal) := by
  match templates with
  | [] => exact sim.done ⟨nofun, rfl⟩
  | template :: rest =>
    simp only [Template.partsAll, List.forall_mem_append] at ht
    refine sim.bind (build hdecls template ht.1 hc) fun x y h => ?_
    refine sim.bind (buildAll hdecls rest ht.2 hc) fun xs ys hrest => sim.done ?_
    obtain ⟨hx, rfl⟩ := h
    obtain ⟨hxs, rfl⟩ := hrest
    exact ⟨List.forall_mem_cons.2 ⟨hx, hxs⟩, rfl⟩
termination_by structural templates

theorem buildOption (hdecls : decls.WellKeyed) (template : Option Template)
    (ht : ∀ part ∈ Template.partsOption template, part.Plain) {captures : Captures}
    (hc : captures.WellKeyed) :
    sim.Rel Term.CanonicalOption (Template.buildOption decls template captures)
      (Template.buildOption decls.normal (Template.normalOption template) captures.normal) := by
  match template with
  | none => exact sim.done ⟨nofun, rfl⟩
  | some template =>
    refine sim.bind (build hdecls template ht hc) fun x y h => sim.done ?_
    obtain ⟨hx, rfl⟩ := h
    refine ⟨fun term hterm => ?_, rfl⟩
    cases hterm
    exact hx
termination_by structural template

/-- A guard holds as its normal form does. -/
theorem holds (hdecls : decls.WellKeyed) (guard : Guard) (hg : ∀ part ∈ guard.parts, part.Plain)
    {captures : Captures} (hc : captures.WellKeyed) :
    sim.Rel Eq (guard.holds decls captures) (guard.normal.holds decls.normal captures.normal) := by
  match guard with
  | .equal left right =>
    simp only [Guard.parts, List.forall_mem_append] at hg
    refine sim.bind (build hdecls left hg.1 hc) fun x x' hx => ?_
    refine sim.bind (build hdecls right hg.2 hc) fun y y' hy => sim.done ?_
    rw [hx.2, hy.2, Declarations.equivalent_normal hdecls hx.1 hy.1]
  | .fits sub sup =>
    simp only [Guard.parts, List.forall_mem_append] at hg
    refine sim.bind (build hdecls sub hg.1 hc) fun x x' hx => ?_
    refine sim.bind (build hdecls sup hg.2 hc) fun y y' hy => sim.done ?_
    rw [hx.2, hy.2, Declarations.assignable_normal hdecls hx.1 hy.1]
  | .negation inner =>
    exact sim.bind (holds hdecls inner hg hc) fun b b' h => sim.done (h ▸ rfl)
  | .all guards => exact allHold hdecls guards hg hc
termination_by structural guard

theorem allHold (hdecls : decls.WellKeyed) (guards : List Guard)
    (hg : ∀ part ∈ Guard.partsAll guards, part.Plain) {captures : Captures} (hc : captures.WellKeyed) :
    sim.Rel Eq (Guard.allHold decls guards captures)
      (Guard.allHold decls.normal (Guard.normalAll guards) captures.normal) := by
  match guards with
  | [] => exact sim.done rfl
  | guard :: rest =>
    simp only [Guard.partsAll, List.forall_mem_append] at hg
    refine sim.bind (holds hdecls guard hg.1 hc) fun b b' h => ?_
    subst h
    cases b with
    | false => exact sim.done rfl
    | true => exact allHold hdecls rest hg.2 hc
termination_by structural guards

theorem holdsIfAny (hdecls : decls.WellKeyed) (guard : Option Guard)
    (hg : ∀ part ∈ Guard.partsOption guard, part.Plain) {captures : Captures}
    (hc : captures.WellKeyed) :
    sim.Rel Eq (Guard.holdsIfAny decls guard captures)
      (Guard.holdsIfAny decls.normal (Guard.normalOption guard) captures.normal) := by
  match guard with
  | none => exact sim.done rfl
  | some guard => exact holds hdecls guard hg hc
termination_by structural guard

end

/-! ## Steps -/

theorem terminal {x : Term} (terminal : Terminal) (ht : ∀ t ∈ terminal.terms, t.WellKeyed)
    (hx : x.WellKeyed) :
    sim.Rel Term.Canonical (.lift (terminal.result x)) (.lift (terminal.normal.result x.normal)) := by
  cases terminal with
  | input => exact sim.done ⟨hx, rfl⟩
  | term result => exact sim.done ⟨ht result List.mem_cons_self, rfl⟩
  | unmatched => exact sim.done ⟨trivial, rfl⟩
  | undefined reason => exact sim.fail _ _

theorem take (hdecls : decls.WellKeyed) (arm : Arm) (ht : ∀ part ∈ arm.body.parts, part.Plain)
    {captures : Captures} (hc : captures.WellKeyed) :
    sim.Rel Step.Canonical (arm.take decls captures) (arm.normal.take decls.normal captures.normal) := by
  obtain ⟨pattern, guard, body⟩ := arm
  have hdone := sim.bind (sim.build hdecls body ht hc) fun x y h => sim.done (Step.Canonical.done h)
  cases body with
  | reduce inner =>
    simp only [Template.parts, List.forall_mem_cons] at ht
    exact sim.bind (sim.build hdecls inner ht.2 hc) fun x y h => sim.done (Step.Canonical.again h)
  | _ => exact hdone

theorem tryEach (hdecls : decls.WellKeyed) {terminal : Terminal}
    (hterminal : ∀ t ∈ terminal.terms, t.WellKeyed) {x : Term} (hx : x.WellKeyed) (arms : List Arm)
    (hpatterns : ∀ t ∈ arms.flatMap (·.pattern.terms), t.WellKeyed)
    (hparts : ∀ part ∈ Arm.partsAll arms, part.Plain) :
    sim.Rel Step.Canonical (Arm.tryEach decls terminal x arms)
      (Arm.tryEach decls.normal terminal.normal x.normal (Arm.normalAll arms)) := by
  induction arms with
  | nil =>
    exact sim.bind (sim.terminal terminal hterminal hx) fun y y' h => sim.done (.done h)
  | cons arm rest ih =>
    obtain ⟨pattern, guard, body⟩ := arm
    simp only [List.flatMap_cons, Arm.partsAll, Arm.parts, List.forall_mem_append] at hpatterns hparts
    have hlater := ih hpatterns.2 hparts.2
    obtain ⟨hsame, hwell⟩ := Pattern.captures?_normal hdecls hpatterns.1 hx
    rw [Arm.normalAll, Arm.normal, Arm.tryEach, Arm.tryEach]
    refine sim.note _ ?_
    dsimp only
    rw [hsame]
    cases hmatch : pattern.captures? decls x with
    | none => exact hlater
    | some captures =>
      have hc := hwell captures hmatch
      refine sim.bind (sim.holdsIfAny hdecls guard hparts.1.1 hc) fun holds holds' heq => ?_
      subst heq
      cases holds with
      | false => exact hlater
      | true => exact sim.note _ (sim.take hdecls ⟨pattern, guard, body⟩ hparts.1.2 hc)

/-- A step of a plain rule comes on normal forms to the normal form of what it comes to. -/
theorem step (hdecls : decls.WellKeyed) {rule : Rule} (hrule : rule.Plain) {x : Term}
    (hx : x.WellKeyed) :
    sim.Rel Step.Canonical (rule.step decls x) (rule.normal.step decls.normal x.normal) := by
  obtain ⟨name, arms, terminal, recursion⟩ := rule
  have hterms := List.forall_mem_append.1 hrule.wellKeyed
  exact sim.tryEach hdecls hterms.1 hx arms hterms.2 hrule.parts

end Plan.Simulation

end Reshape
