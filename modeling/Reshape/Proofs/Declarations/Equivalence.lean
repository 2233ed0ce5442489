import Reshape.Proofs.Declarations.Assignability

/-!
# Terms that fit each other

Guards take terms that fit each other for equal. Every term fits itself, and the order of the two
does not matter, but a term may fit, and be fitted by, two terms that do not fit each other: a field
that may be missing is compared with nothing where it is missing, and so is the receiver of a
signature (`Declarations.equivalent_not_trans`). There is no other way for that to happen. Terms that
are equivalent to a third one are equivalent, unless at one place both of them have parts that do
not fit and the third has none (`Declarations.equivalent_of_not_parted`).
-/

namespace Reshape

/-- Where a part stands in a term; parameters, like arguments, are counted. -/
inductive Place where
  | item (index : Nat)
  | field (key : String)
  | receiver
  | result

namespace Term

/-- The part at a place. -/
def part? : Place → Term → Option Term
  | .item index, .seq items => items[index]?
  | .item index, .apply _ args => args[index]?
  | .item index, .function _ _ params _ => params[index]?
  | .field key, .composite fields => (Composite.get? fields key).map (·.value)
  | .receiver, .function _ receiver _ _ => receiver
  | .result, .function _ _ _ result => some result
  | _, _ => none

theorem mem_children_of_part? {place : Place} {x part : Term} (h : x.part? place = some part) :
    part ∈ x.children := by
  unfold part? at h
  split at h
  · exact List.mem_of_getElem? h
  · exact List.mem_of_getElem? h
  · simp [children, List.mem_of_getElem? h]
  · obtain ⟨field, hfield, rfl⟩ := Option.map_eq_some_iff.1 h
    exact List.mem_map_of_mem (List.mem_of_find?_eq_some hfield)
  · simp [children, h]
  · simp [children, Option.some.inj h]
  · cases h

/-! ## One level -/

variable {fits : Term → Term → Prop} {x y z : Term}

/-- From part to part, fitting goes on from the first term to the third, through the parts of the
second or past them. -/
structure Chains (fits : Term → Term → Prop) (x y z : Term) : Prop where
  through : ∀ place {u v w : Term}, x.part? place = some u → y.part? place = some v →
    z.part? place = some w → fits u v → fits v w → fits u w
  past : ∀ place {u w : Term}, x.part? place = some u → y.part? place = none →
    z.part? place = some w → fits u w

theorem forall₂_trans {xs ys zs : List Term} (hxy : List.Forall₂ fits xs ys)
    (hyz : List.Forall₂ fits ys zs)
    (hparts : ∀ (index : Nat) (u v w : Term), xs[index]? = some u → ys[index]? = some v →
      zs[index]? = some w → fits u v → fits v w → fits u w) : List.Forall₂ fits xs zs := by
  induction hxy generalizing zs with
  | nil =>
    cases hyz
    exact .nil
  | cons huv _ ih =>
    cases hyz with
    | cons hvw hyz =>
      refine .cons (hparts 0 _ _ _ rfl rfl rfl huv hvw) (ih hyz fun index u v w hu hv hw => ?_)
      exact hparts (index + 1) u v w hu hv hw

/-- Of the parameters that are expected at the end, those are given that are expected first. -/
theorem forall₂_take_trans {xs ys zs : List Term} (hyx : List.Forall₂ fits (ys.take xs.length) xs)
    (hzy : List.Forall₂ fits (zs.take ys.length) ys)
    (hparts : ∀ (index : Nat) (u v w : Term), xs[index]? = some u → ys[index]? = some v →
      zs[index]? = some w → fits w v → fits v u → fits w u) :
    List.Forall₂ fits (zs.take xs.length) xs := by
  have hle : xs.length ≤ ys.length := by
    have hlength := hyx.length_eq
    rw [List.length_take] at hlength
    omega
  have hzy' := List.forall₂_take xs.length hzy
  rw [List.take_take, Nat.min_eq_left hle] at hzy'
  refine forall₂_trans hzy' hyx fun index w v u hw hv hu => ?_
  rw [List.getElem?_take] at hw hv
  split at hw
  · rename_i hlt
    rw [if_pos hlt] at hv
    exact hparts index u v w hu hv hw
  · cases hw

theorem FitsBy.trans_composite {xs ys zs : Composite} (hzs : zs.Distinct)
    (hforth : Chains fits (.composite xs) (.composite ys) (.composite zs))
    (hrequired : ∀ target ∈ ys, target.modifiers.optional = false →
      ∃ field ∈ xs.get? target.key, field.modifiers.optional = false)
    (hfields : ∀ target ∈ ys, ∀ field ∈ xs.get? target.key, fits field.value target.value)
    (hrequired' : ∀ target ∈ zs, target.modifiers.optional = false →
      ∃ field ∈ ys.get? target.key, field.modifiers.optional = false)
    (hfields' : ∀ target ∈ zs, ∀ field ∈ ys.get? target.key, fits field.value target.value) :
    FitsBy fits (.composite xs) (.composite zs) := by
  refine .composite (fun target htarget hneeded => ?_) fun target htarget field hfield => ?_
  · obtain ⟨between, hbetween, hthere⟩ := hrequired' target htarget hneeded
    obtain ⟨hmem, hkey⟩ := Composite.mem_of_get? hbetween
    exact hkey ▸ hrequired between hmem hthere
  · have hleft : (Term.composite xs).part? (.field target.key) = some field.value :=
      congrArg (Option.map Entry.value) hfield
    have hright : (Term.composite zs).part? (.field target.key) = some target.value :=
      congrArg (Option.map Entry.value) (hzs.get?_eq_some_iff.2 ⟨htarget, rfl⟩)
    cases hbetween : ys.get? target.key with
    | none => exact hforth.past _ hleft (congrArg (Option.map Entry.value) hbetween) hright
    | some between =>
      obtain ⟨hmem, hkey⟩ := Composite.mem_of_get? hbetween
      exact hforth.through _ hleft (congrArg (Option.map Entry.value) hbetween) hright
        (hfields between hmem field (hkey ▸ hfield)) (hfields' target htarget between hbetween)

/-- What fits along a chain of parts fits as a whole. -/
theorem FitsBy.trans (hz : z.WellKeyed) (hforth : Chains fits x y z) (hback : Chains fits z y x)
    (hxy : FitsBy fits x y) (hyz : FitsBy fits y z) : FitsBy fits x z := by
  cases hxy with
  | unknown =>
    cases hyz with
    | unknown | leaf => exact .unknown
  | never => exact .never
  | int value =>
    cases hyz with
    | unknown => exact .unknown
    | leaf => exact .int value
  | bool value =>
    cases hyz with
    | unknown => exact .unknown
    | leaf => exact .bool value
  | undefined =>
    cases hyz with
    | unknown => exact .unknown
    | leaf => exact .undefined
  | text s =>
    cases hyz with
    | unknown => exact .unknown
    | leaf => exact .text s
  | seq hxy =>
    cases hyz with
    | unknown => exact .unknown
    | seq hyz => exact .seq (forall₂_trans hxy hyz fun index u v w => hforth.through (.item index))
    | leaf hleaf => cases hleaf
  | apply head hxy =>
    cases hyz with
    | unknown => exact .unknown
    | apply _ hyz =>
      exact .apply head (forall₂_trans hxy hyz fun index u v w => hforth.through (.item index))
    | leaf hleaf => cases hleaf
  | composite hrequired hfields =>
    cases hyz with
    | unknown => exact .unknown
    | composite hrequired' hfields' =>
      exact .trans_composite (wellKeyed_composite.1 hz).1 hforth hrequired hfields hrequired' hfields'
    | leaf hleaf => cases hleaf
  | @function kind r r' ps ps' t t' hr hps ht =>
    cases hyz with
    | unknown => exact .unknown
    | @function _ _ r'' _ ps'' _ t'' hr' hps' ht' =>
      refine .function kind ?_ ?_ (hforth.through .result rfl rfl rfl ht ht')
      · intro expected hexpected given hgiven
        cases hbetween : r' with
        | none => exact hback.past .receiver hgiven hbetween hexpected
        | some between =>
          have hleft := hr expected hexpected between hbetween
          exact hback.through .receiver hgiven hbetween hexpected (hr' between hbetween given hgiven) hleft
      · refine forall₂_take_trans hps hps' fun index u v w hu hv hw => ?_
        exact hback.through (.item index) hw hv hu
    | leaf hleaf => cases hleaf
  | leaf => exact hyz

end Term

namespace Declarations

variable {decls : Declarations} {levels : Nat} {a b c x y z : Term}

/-! ## All levels -/

/-- At one place inside of the three terms, the first and the third have parts that do not fit each
other on the levels that are left, and the second has none. -/
inductive Parted (decls : Declarations) : (levels : Nat) → Term → Term → Term → Prop where
  | here {levels : Nat} {a b c u w : Term} {place : Place} :
      (decls.resolve a).part? place = some u → (decls.resolve b).part? place = none →
      (decls.resolve c).part? place = some w →
      ¬ (decls.fitsWithin levels u w = true ∧ decls.fitsWithin levels w u = true) →
      Parted decls (levels + 1) a b c
  | inside {levels : Nat} {a b c u v w : Term} {place : Place} :
      (decls.resolve a).part? place = some u → (decls.resolve b).part? place = some v →
      (decls.resolve c).part? place = some w → Parted decls levels u v w →
      Parted decls (levels + 1) a b c

theorem Parted.symm (h : decls.Parted levels a b c) : decls.Parted levels c b a := by
  induction h with
  | here hu hv hw hparted => exact .here hw hv hu fun hboth => hparted hboth.symm
  | inside hu hv hw _ ih => exact .inside hw hv hu ih

/-- Whether shapes fit does not depend on the order of fields. -/
theorem fitsShape_of_same_of_same (hdecls : decls.WellKeyed) (levels : Nat) {x' y' : Term}
    (hx : x.Same x') (hy : y.Same y') :
    fitsShape (decls.fitsWithin levels) x y = fitsShape (decls.fitsWithin levels) x' y' := by
  have hnormal := fitsWithin_normal hdecls levels
  rw [← hnormal.shape hx.left hy.left, ← hnormal.shape hx.right hy.right, hx.normal, hy.normal]

/-- On one level, a term fits another one by being equal to it or by its shape. -/
theorem fitsWithin_succ_iff (hdecls : decls.WellKeyed) (ha : a.WellKeyed) (hb : b.WellKeyed) :
    decls.fitsWithin (levels + 1) a b = true ↔
      (decls.resolve a).Same (decls.resolve b) ∨
        fitsShape (decls.fitsWithin levels) (decls.resolve a) (decls.resolve b) = true := by
  rw [fitsWithin, Bool.or_eq_true]
  exact or_congr_left ⟨.of_beq (hdecls.resolve ha) (hdecls.resolve hb), Term.Same.beq⟩

/-- Fitting goes on from part to part where terms are not parted, if it is transitive on the levels
that are left. -/
theorem chains_of_not_parted (hdecls : decls.WellKeyed) (ha : a.WellKeyed) (hb : b.WellKeyed)
    (hc : c.WellKeyed)
    (htrans : ∀ {u v w : Term}, u.WellKeyed → v.WellKeyed → w.WellKeyed →
      decls.fitsWithin levels u v = true → decls.fitsWithin levels v w = true →
      ¬ decls.Parted levels u v w → decls.fitsWithin levels u w = true)
    (hnot : ¬ decls.Parted (levels + 1) a b c) :
    Term.Chains (fun u v => decls.fitsWithin levels u v = true) (decls.resolve a) (decls.resolve b)
      (decls.resolve c) := by
  have hpart : ∀ {term part : Term} {place : Place}, term.WellKeyed →
      (decls.resolve term).part? place = some part → part.WellKeyed :=
    fun hterm h => (hdecls.resolve hterm).of_mem_children (Term.mem_children_of_part? h)
  refine ⟨fun place u v w hu hv hw huv hvw => ?_, fun place u w hu hv hw => ?_⟩
  · exact htrans (hpart ha hu) (hpart hb hv) (hpart hc hw) huv hvw fun h => hnot (.inside hu hv hw h)
  · have hboth := Classical.not_not.1 fun h => hnot (.here hu hv hw h)
    exact hboth.1

/-- Fitting is transitive for terms that are not parted. -/
theorem fitsWithin_trans (hdecls : decls.WellKeyed) (ha : a.WellKeyed) (hb : b.WellKeyed)
    (hc : c.WellKeyed) (hab : decls.fitsWithin levels a b = true)
    (hbc : decls.fitsWithin levels b c = true) (hnot : ¬ decls.Parted levels a b c) :
    decls.fitsWithin levels a c = true := by
  induction levels generalizing a b c with
  | zero => cases hab
  | succ levels ih =>
    have hx := hdecls.resolve ha
    have hz := hdecls.resolve hc
    rw [fitsWithin_succ_iff hdecls ha hb] at hab
    rw [fitsWithin_succ_iff hdecls hb hc] at hbc
    rw [fitsWithin_succ_iff hdecls ha hc]
    rcases hab with hab | hab
    · rcases hbc with hbc | hbc
      · exact .inl ⟨hx, hz, hab.eq.trans hbc.eq⟩
      · rw [fitsShape_of_same_of_same hdecls levels hab (.refl hz)]
        exact .inr hbc
    · rcases hbc with hbc | hbc
      · rw [← fitsShape_of_same_of_same hdecls levels (.refl hx) hbc]
        exact .inr hab
      · have hforth := chains_of_not_parted hdecls ha hb hc ih hnot
        have hback := chains_of_not_parted hdecls hc hb ha ih fun h => hnot h.symm
        have hfits := Term.FitsBy.trans hz hforth hback (fitsBy_iff.2 (.inr hab))
          (fitsBy_iff.2 (.inr hbc))
        refine (fitsBy_iff.1 hfits).imp_left fun heq => ?_
        exact heq.1 ▸ .refl hx

theorem equivalent_iff :
    decls.equivalent a b = true ↔
      decls.fitsWithin (maxFitDepth + 1) a b = true ∧ decls.fitsWithin (maxFitDepth + 1) b a = true :=
  Bool.and_eq_true_iff

/-- Equivalence is reflexive and symmetric, and transitive for terms that are not parted. -/
theorem equivalent_of_not_parted (hdecls : decls.WellKeyed) (ha : a.WellKeyed) (hb : b.WellKeyed)
    (hc : c.WellKeyed) :
    decls.equivalent a a = true ∧
      (decls.equivalent a b = true → decls.equivalent b a = true) ∧
      (decls.equivalent a b = true → decls.equivalent b c = true →
        ¬ decls.Parted (maxFitDepth + 1) a b c → decls.equivalent a c = true) := by
  refine ⟨?_, ?_, ?_⟩
  · have hself := fitsWithin_of_same hdecls maxFitDepth (.refl ha)
    exact equivalent_iff.2 ⟨hself, hself⟩
  · exact fun h => equivalent_iff.2 (equivalent_iff.1 h).symm
  · intro hab hbc hnot
    obtain ⟨hab, hba⟩ := equivalent_iff.1 hab
    obtain ⟨hbc, hcb⟩ := equivalent_iff.1 hbc
    refine equivalent_iff.2 ⟨fitsWithin_trans hdecls ha hb hc hab hbc hnot, ?_⟩
    exact fitsWithin_trans hdecls hc hb ha hcb hba fun h => hnot h.symm

/-- A composite that may have one more field. -/
def mayHave (key : String) (value : Term) : Term := .composite [⟨key, value, { optional := true }⟩]

/-- An empty composite is equivalent to composites that are not equivalent to each other. -/
theorem equivalent_not_trans :
    (∅ : Declarations).equivalent (mayHave "c" (.prim .number)) (.composite []) = true ∧
      (∅ : Declarations).equivalent (.composite []) (mayHave "c" (.prim .string)) = true ∧
      (∅ : Declarations).equivalent (mayHave "c" (.prim .number)) (mayHave "c" (.prim .string)) =
        false := by
  decide +kernel

/-- Composites with fields of different keys are equivalent, as they are to the empty composite. -/
theorem equivalent_mayHave :
    (∅ : Declarations).equivalent (mayHave "c" (.prim .number)) (mayHave "d" (.prim .string)) =
      true := by
  have hkeyed : ∀ key p, (mayHave key (.prim p)).WellKeyed := by
    simp [mayHave, Composite.Distinct, Composite.keys, Term.prim]
  have htrans := (equivalent_of_not_parted wellKeyed_empty (hkeyed "c" .number)
    (b := .composite []) (by simp [Composite.Distinct, Composite.keys]) (hkeyed "d" .string)).2.2
  refine htrans (by decide +kernel) (by decide +kernel) fun hparted => ?_
  have hkey : ∀ {key p place part},
      (mayHave key (.prim p)).part? place = some part → place = .field key := by
    intro key p place part hpart
    cases place with
    | field other =>
      obtain ⟨field, hfield, -⟩ := Option.map_eq_some_iff.1 hpart
      obtain ⟨hmem, rfl⟩ := Composite.mem_of_get? hfield
      rw [List.mem_singleton.1 hmem]
    | _ => cases hpart
  cases hparted with
  | here hu _ hw _ =>
    have heq := Place.field.inj ((hkey hu).symm.trans (hkey hw))
    exact absurd heq (by decide)
  | @inside _ _ _ _ _ _ _ place _ hv => cases place <;> cases hv

end Declarations

end Reshape
