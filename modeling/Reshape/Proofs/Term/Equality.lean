import Reshape.Proofs.Term.Normal

/-!
# Terms are equal if they have one normal form

Composites are only ever put together entry by entry, so the terms that can be built are those whose
composites have distinct keys (`Term.built_iff_wellKeyed`). The equality of such terms asks one
composite about the fields of the other and never the other way round. It still is an equivalence,
because it says that the terms have one normal form, and kind, length and size are those of the normal
form (`Term.equality_of_normal_forms`).
-/

namespace Reshape.Term

/-- Terms built from their parts, where composites are put together entry by entry. -/
inductive Built : Term → Prop where
  | seq {items : List Term} : (∀ item ∈ items, Built item) → Built (.seq items)
  | text (content : String) : Built (.text content)
  | composite {entries : List (Entry Term)} : (∀ entry ∈ entries, Built entry.value) →
      Built (.composite (Composite.ofList entries))
  | atom (value : Atom) : Built (.atom value)
  | apply (head : String) {args : List Term} : (∀ arg ∈ args, Built arg) → Built (.apply head args)
  | function (kind : SignatureKind) {receiver : Option Term} {params : List Term} {result : Term} :
      (∀ term ∈ receiver, Built term) → (∀ param ∈ params, Built param) → Built result →
      Built (.function kind receiver params result)
  | ref (name : String) : Built (.ref name)

variable {x y : Term}

theorem Built.wellKeyed (h : x.Built) : x.WellKeyed := by
  induction h with
  | seq _ ih => exact wellKeyed_seq.2 ih
  | text content => exact wellKeyed_text content
  | composite _ ih =>
    exact wellKeyed_composite.2 ⟨Composite.distinct_ofList _,
      fun entry hentry => ih entry (Composite.mem_of_mem_ofList hentry)⟩
  | atom value => exact wellKeyed_atom value
  | apply _ _ ih => exact wellKeyed_apply.2 ih
  | function _ _ _ _ ihr ihps iht => exact wellKeyed_function.2 ⟨ihr, ihps, iht⟩
  | ref name => exact wellKeyed_ref name

/-- The terms that can be built are those in which no composite has a key twice. -/
theorem built_iff_wellKeyed : x.Built ↔ x.WellKeyed := by
  refine ⟨Built.wellKeyed, fun h => ?_⟩
  induction x with
  | seq items ih =>
    rw [wellKeyed_seq] at h
    exact .seq fun item hitem => ih item hitem (h item hitem)
  | text content => exact .text content
  | composite entries ih =>
    rw [wellKeyed_composite] at h
    rw [← h.1.ofList_eq]
    exact .composite fun entry hentry => ih entry hentry (h.2 entry hentry)
  | atom value => exact .atom value
  | apply head args ih =>
    rw [wellKeyed_apply] at h
    exact .apply head fun arg harg => ih arg harg (h arg harg)
  | function kind receiver params result ihr ihps iht =>
    rw [wellKeyed_function] at h
    exact .function kind (fun term hterm => ihr term hterm (h.1 term hterm))
      (fun param hparam => ihps param hparam (h.2.1 param hparam)) (iht h.2.2)
  | ref name => exact .ref name

theorem Built.of_mem_children {part : Term} (h : x.Built) (hpart : part ∈ x.children) : part.Built :=
  built_iff_wellKeyed.2 (h.wellKeyed.of_mem_children hpart)

theorem Built.beq_iff (hx : x.Built) (hy : y.Built) : (x == y) = true ↔ x.normal = y.normal :=
  Term.beq_iff hx.wellKeyed hy.wellKeyed

/-- Terms of one normal form agree in what the normal form keeps. -/
theorem outline_eq_of_normal_eq (h : x.normal = y.normal) :
    x.kind = y.kind ∧ x.length? = y.length? ∧ x.size = y.size := by
  refine ⟨?_, ?_, ?_⟩
  · rw [← kind_normal x, h, kind_normal]
  · rw [← length?_normal x, h, length?_normal]
  · rw [← size_normal x, h, size_normal]

/-- Terms that are built are equal exactly if sorting the fields of all composites in them by key
gives the same term. So equality is reflexive, symmetric and transitive, and equal terms have the same
kind, length and size. The parts of a term are built as well, so that this holds of what is nested in a
term at any depth. -/
theorem equality_of_normal_forms {x y z : Term} (hx : x.Built) (hy : y.Built) (hz : z.Built) :
    ((x == y) = true ↔ x.normal = y.normal) ∧
      (x == x) = true ∧ (x == y) = (y == x) ∧
      ((x == y) = true → (y == z) = true → (x == z) = true) ∧
      ((x == y) = true → x.kind = y.kind ∧ x.length? = y.length? ∧ x.size = y.size) ∧
      ∀ part ∈ x.children, part.Built := by
  have hxy := hx.beq_iff hy
  have hsymm : (x == y) = (y == x) := by
    rw [Bool.eq_iff_iff, hxy, hy.beq_iff hx, eq_comm]
  have htrans : (x == y) = true → (y == z) = true → (x == z) = true := by
    rw [hxy, hy.beq_iff hz, hx.beq_iff hz]
    exact Eq.trans
  exact ⟨hxy, (hx.beq_iff hx).2 rfl, hsymm, htrans,
    fun h => outline_eq_of_normal_eq (hxy.1 h), fun _ => hx.of_mem_children⟩

/-- A flag beside the position of a point, with the fields of both composites in the given order. -/
def flagged (outer inner : Composite → Composite) : Term :=
  .composite (outer [⟨"shown", .bool true, { optional := true }⟩,
    ⟨"at", .seq [.composite (inner [⟨"x", .int 1, {}⟩, ⟨"y", .int 2, {}⟩])], {}⟩])

/-- The order of fields inside a sequence, and then that of the composite around it, does not
matter. -/
theorem flagged_equal :
    (flagged id id == flagged id .reverse) = true ∧
      (flagged id .reverse == flagged .reverse .reverse) = true ∧
      (flagged id id == flagged .reverse .reverse) = true ∧
      (flagged id id).normal = (flagged id .reverse).normal ∧
      (flagged id id).size = 6 ∧ (flagged id .reverse).size = 6 ∧
      ∀ part ∈ (flagged id id).children, part.Built := by
  have hfirst : (flagged id id).Built :=
    built_iff_wellKeyed.2 (by simp [flagged, Composite.Distinct, Composite.keys, bool, int])
  have hsecond : (flagged id .reverse).Built :=
    built_iff_wellKeyed.2 (by simp [flagged, Composite.Distinct, Composite.keys, bool, int])
  have hthird : (flagged .reverse .reverse).Built :=
    built_iff_wellKeyed.2 (by simp [flagged, Composite.Distinct, Composite.keys, bool, int])
  have hinner : (flagged id id == flagged id .reverse) = true := by decide +kernel
  have houter : (flagged id .reverse == flagged .reverse .reverse) = true := by decide +kernel
  obtain ⟨hnormal, -, -, htrans, hsame, hparts⟩ := equality_of_normal_forms hfirst hsecond hthird
  have hsize : (flagged id id).size = 6 := rfl
  exact ⟨hinner, houter, htrans hinner houter, hnormal.1 hinner, hsize,
    (hsame hinner).2.2.symm.trans hsize, hparts⟩

end Reshape.Term
