import Reshape.Pattern.Equality
import Reshape.Pattern.Match
import Reshape.Proofs.Declarations.Normal

/-!
# Matching and the order of fields

Matching does not look at the order of fields: the normal form of a pattern matches the
normal form of a term exactly if the pattern matches the term, and binds the normal forms
of what it binds (`Pattern.extend?_normal`). Equal patterns have one normal form
(`Pattern.normal_eq_of_beq`).
-/

namespace Reshape

/-! ## Captures -/

namespace Table

variable {κ ν : Type} [BEq κ]

theorem set_mapValues (f : ν → ν) (t : Table κ ν) (key : κ) (value : ν) :
    (t.mapValues f).set key (f value) = (t.set key value).mapValues f := by
  obtain ⟨entries⟩ := t
  show Table.mk _ = Table.mk _
  congr 1
  induction entries with
  | nil => rfl
  | cons entry rest ih =>
    obtain ⟨k, v⟩ := entry
    by_cases hkey : k == key <;> simp_all [setEntry, mapValues, set]

end Table

namespace Captures

variable {captures : Captures} {name : String} {term : Term}

/-- All captured terms have distinct keys. -/
def WellKeyed (captures : Captures) : Prop :=
  ∀ name term, captures.get? name = some term → term.WellKeyed

/-- The captures of the normal forms. -/
def normal (captures : Captures) : Captures := ⟨captures.bindings.mapValues Term.normal⟩

theorem get?_normal (captures : Captures) (name : String) :
    captures.normal.get? name = (captures.get? name).map Term.normal :=
  captures.bindings.get?_mapValues Term.normal name

theorem wellKeyed_empty : WellKeyed ∅ := fun _ _ h => nomatch h

theorem WellKeyed.set (h : captures.WellKeyed) (hterm : term.WellKeyed) (name : String) :
    WellKeyed ⟨captures.bindings.set name term⟩ := by
  intro other found hget
  rw [get?_set] at hget
  split at hget
  · cases hget
    exact hterm
  · exact h other found hget

/-- A field is mapped under the normal form of its value. -/
theorem forField_normal (captures : Captures) (field : Entry Term) :
    captures.normal.forField field.normal.key field.normal.value =
      (captures.forField field.key field.value).normal := by
  rw [forField, forField, normal, normal, ← Term.normal_text, Table.set_mapValues]
  exact congrArg Captures.mk (Table.set_mapValues Term.normal _ valueName field.value)

theorem WellKeyed.forField (h : captures.WellKeyed) (key : String) (hterm : term.WellKeyed) :
    (captures.forField key term).WellKeyed :=
  WellKeyed.set (h.set (Term.wellKeyed_text key) keyName) hterm valueName

/-- `m'` comes on normal forms to the normal forms of what `m` comes to, and `m` to captures
with distinct keys. -/
def Mirrors (m m' : Captures → Option Captures) : Prop :=
  ∀ captures : Captures, captures.WellKeyed → m' captures.normal = (m captures).map normal ∧
    ∀ extended ∈ m captures, extended.WellKeyed

namespace Mirrors

variable {m m' n n' : Captures → Option Captures}

theorem some : Mirrors Option.some Option.some := by
  intro captures h
  refine ⟨rfl, fun extended hextended => ?_⟩
  cases hextended
  exact h

theorem none : Mirrors (fun _ => Option.none) fun _ => Option.none :=
  fun _ _ => ⟨rfl, fun _ hextended => nomatch hextended⟩

theorem ite (c : Prop) [Decidable c] (h : Mirrors m m') :
    Mirrors (fun captures => if c then m captures else Option.none)
      fun captures => if c then m' captures else Option.none := by
  by_cases hc : c
  · simpa only [if_pos hc] using h
  · simpa only [if_neg hc] using none

theorem bind (h : Mirrors m m') (hn : Mirrors n n') :
    Mirrors (fun captures => (m captures).bind n) fun captures => (m' captures).bind n' := by
  intro captures hcaptures
  obtain ⟨heq, hwell⟩ := h captures hcaptures
  dsimp only
  rw [heq]
  cases hm : m captures with
  | none => exact ⟨rfl, fun _ hextended => nomatch hextended⟩
  | some extended => exact hn extended (hwell extended hm)

/-- The first of two that comes to something. -/
theorem orElse (h : Mirrors m m') (hn : Mirrors n n') :
    Mirrors
      (fun captures => match m captures with
        | Option.some extended => Option.some extended
        | Option.none => n captures)
      fun captures => match m' captures with
        | Option.some extended => Option.some extended
        | Option.none => n' captures := by
  intro captures hcaptures
  obtain ⟨heq, hwell⟩ := h captures hcaptures
  dsimp only
  rw [heq]
  cases hm : m captures with
  | none => exact hn captures hcaptures
  | some extended =>
    refine ⟨rfl, fun other hother => ?_⟩
    cases hother
    exact hwell extended hm

theorem bind? (hterm : term.WellKeyed) (name : String) :
    Mirrors (·.bind? name term) (·.bind? name term.normal) := by
  intro captures h
  dsimp only
  rw [Captures.bind?, Captures.bind?, get?_normal]
  cases hget : captures.get? name with
  | none =>
    refine ⟨?_, fun extended hextended => ?_⟩
    · show Option.some _ = Option.some _
      rw [normal, Table.set_mapValues]
      rfl
    · cases hextended
      exact h.set hterm name
  | some bound =>
    rw [Option.map_some]
    dsimp only
    rw [Term.beq_normal (h name bound hget) hterm]
    split
    · refine ⟨rfl, fun extended hextended => ?_⟩
      cases hextended
      exact h
    · exact ⟨rfl, fun _ hextended => nomatch hextended⟩

end Mirrors

end Captures

/-! ## Patterns -/

namespace Pattern

mutual

/-- The terms inside a pattern. -/
def terms : Pattern → List Term
  | .any | .bind _ | .kind _ | .text _ => []
  | .named _ inner => terms inner
  | .literal term => [term]
  | .fits target => [target]
  | .alt alternatives => termsAll alternatives
  | .seq front rest back => termsAll front ++ termsOption rest ++ termsAll back
  | .chars front rest back => termsAll front ++ termsOption rest ++ termsAll back
  | .composite fields => termsFields fields
  | .apply _ args => termsAll args
  | .function _ receiver params result => termsOption receiver ++ terms params ++ terms result
termination_by structural pattern => pattern

def termsAll : List Pattern → List Term
  | [] => []
  | pattern :: rest => terms pattern ++ termsAll rest
termination_by structural patterns => patterns

def termsOption : Option Pattern → List Term
  | none => []
  | some pattern => terms pattern
termination_by structural pattern => pattern

def termsFields : List (FieldPattern Pattern) → List Term
  | [] => []
  | ⟨_, _, value⟩ :: rest => terms value ++ termsFields rest
termination_by structural fields => fields

end

mutual

/-- The pattern with the terms inside it in normal form. -/
def normal : Pattern → Pattern
  | .any => .any
  | .bind name => .bind name
  | .named name inner => .named name (normal inner)
  | .literal term => .literal term.normal
  | .kind k => .kind k
  | .fits target => .fits target.normal
  | .alt alternatives => .alt (normalAll alternatives)
  | .seq front rest back => .seq (normalAll front) (normalOption rest) (normalAll back)
  | .chars front rest back => .chars (normalAll front) (normalOption rest) (normalAll back)
  | .text segments => .text segments
  | .composite fields => .composite (normalFields fields)
  | .apply head args => .apply head (normalAll args)
  | .function k receiver params result =>
    .function k (normalOption receiver) (normal params) (normal result)
termination_by structural pattern => pattern

def normalAll : List Pattern → List Pattern
  | [] => []
  | pattern :: rest => normal pattern :: normalAll rest
termination_by structural patterns => patterns

def normalOption : Option Pattern → Option Pattern
  | none => none
  | some pattern => some (normal pattern)
termination_by structural pattern => pattern

def normalFields : List (FieldPattern Pattern) → List (FieldPattern Pattern)
  | [] => []
  | ⟨key, presence, value⟩ :: rest => ⟨key, presence, normal value⟩ :: normalFields rest
termination_by structural fields => fields

end

@[simp] theorem length_normalAll (patterns : List Pattern) :
    (normalAll patterns).length = patterns.length := by
  induction patterns with
  | nil => rfl
  | cons pattern rest ih => rw [normalAll, List.length_cons, List.length_cons, ih]

@[simp] theorem isSome_normalOption (pattern : Option Pattern) :
    (normalOption pattern).isSome = pattern.isSome := by
  cases pattern <;> rfl

/-- All terms inside the pattern have distinct keys. -/
def WellKeyed (pattern : Pattern) : Prop := ∀ term ∈ pattern.terms, term.WellKeyed

variable {decls : Declarations} {term : Term}

open Captures

theorem cutEnds_map (f : Term → Term) (front back : Nat) (items : List Term) :
    cutEnds front back (items.map f) = ((cutEnds front back items).1.map f,
      (cutEnds front back items).2.1.map f, (cutEnds front back items).2.2.map f) := by
  simp only [cutEnds_eq, List.map_take, List.map_drop, List.length_map]

/-- What holds of all elements holds of those in the parts of a cut. -/
theorem forall_mem_cutEnds {P : Term → Prop} {items : List Term} (front back : Nat)
    (h : ∀ item ∈ items, P item) :
    (∀ item ∈ (cutEnds front back items).1, P item) ∧
      (∀ item ∈ (cutEnds front back items).2.1, P item) ∧
        ∀ item ∈ (cutEnds front back items).2.2, P item := by
  rw [cutEnds_eq]
  refine ⟨fun item hmem => h item (List.mem_of_mem_take hmem), fun item hmem => h item ?_,
    fun item hmem => h item ?_⟩
  · exact List.mem_of_mem_drop (List.mem_of_mem_take hmem)
  · exact List.mem_of_mem_drop (List.mem_of_mem_drop hmem)

/-- Texts are in normal form. -/
theorem map_normal_ofChar (chars : List Char) :
    (chars.map Term.ofChar).map Term.normal = chars.map Term.ofChar := by
  rw [List.map_map]
  exact List.map_congr_left fun _ _ => rfl

theorem mirrors_runs (runs : CutRuns) :
    Mirrors (fun captures => runs.foldlM (fun bound (name, run) => bound.bind? name (.text run)) captures)
      fun captures => runs.foldlM (fun bound (name, run) => bound.bind? name (.text run)) captures := by
  induction runs with
  | nil => exact .some
  | cons run rest ih => exact .bind (.bind? (Term.wellKeyed_text run.2) run.1) ih

/-- A field pattern looks at the normal form of what it looks at. -/
theorem select?_map_normal (presence : Presence) (field : Option (Entry Term)) :
    presence.select? (field.map Entry.normal) = (presence.select? field).map Term.normal := by
  cases presence <;> cases field <;> first | rfl | skip
  rename_i entry
  show (if entry.modifiers.optional then _ else _) = Option.map _ (if entry.modifiers.optional then _ else _)
  split <;> rfl

/-- What a field pattern looks at is the value of a field, or `unknown`. -/
theorem forall_of_select? {P : Term → Prop} (hunknown : P .unknown) {presence : Presence}
    {field : Option (Entry Term)} {term : Term} (h : presence.select? field = some term)
    (hfield : ∀ entry ∈ field, P entry.value) : P term := by
  cases field with
  | none =>
    cases presence <;> cases h
    exact hunknown
  | some entry =>
    have hvalue := hfield entry rfl
    cases presence with
    | required =>
      rw [Presence.select?] at h
      split at h <;> cases h
      exact hvalue
    | declared => exact Option.some.inj h ▸ hvalue
    | maybeAbsent => exact Option.some.inj h ▸ hvalue

mutual

/-- Matching comes to the same on normal forms. -/
theorem extend?_normal (hdecls : decls.WellKeyed) (pattern : Pattern) {term : Term}
    (hpattern : ∀ t ∈ pattern.terms, t.WellKeyed) (hterm : term.WellKeyed) :
    Mirrors (pattern.extend? decls term) (pattern.normal.extend? decls.normal term.normal) := by
  match pattern with
  | .any => exact .some
  | .bind name => exact .bind? hterm name
  | .named name inner =>
    exact .bind (extend?_normal hdecls inner hpattern hterm) (.bind? hterm name)
  | .literal expected =>
    have hexpected : expected.WellKeyed := hpattern expected List.mem_cons_self
    have hbeq := Term.beq_normal (hdecls.resolve hterm) (hdecls.resolve hexpected)
    simp only [normal, extend?, Term.beq_normal hterm hexpected, Declarations.resolve_normal, hbeq]
    exact .ite _ .some
  | .kind k =>
    simp only [normal, extend?, Declarations.resolve_normal, Term.kind_normal]
    exact .ite _ .some
  | .fits target =>
    have htarget : target.WellKeyed := hpattern target List.mem_cons_self
    simp only [normal, extend?, Declarations.assignable_normal hdecls hterm htarget]
    exact .ite _ .some
  | .alt alternatives => exact extendFirst?_normal hdecls alternatives hpattern hterm
  | .seq front rest back =>
    simp only [terms, List.forall_mem_append] at hpattern
    have hwell := hdecls.resolve hterm
    simp only [normal, extend?, Declarations.resolve_normal]
    generalize decls.resolve term = shape at hwell
    cases shape with
    | seq items =>
      have hcut := forall_mem_cutEnds front.length back.length (Term.wellKeyed_seq.1 hwell)
      simp only [Term.normal_seq, length_normalAll, isSome_normalOption, List.length_map, cutEnds_map]
      refine .ite _ (.bind (.bind ?_ ?_) ?_)
      · exact extendEach?_normal hdecls front hpattern.1.1 hcut.1
      · exact extendEach?_normal hdecls back hpattern.2 hcut.2.2
      · rw [← Term.normal_seq]
        exact extendRest?_normal hdecls rest hpattern.1.2 (Term.wellKeyed_seq.2 hcut.2.1)
    | _ => exact .none
  | .chars front rest back =>
    simp only [terms, List.forall_mem_append] at hpattern
    simp only [normal, extend?, Declarations.resolve_normal]
    generalize decls.resolve term = shape
    cases shape with
    | text s =>
      have hchars : ∀ chars : List Char, ∀ t ∈ chars.map Term.ofChar, t.WellKeyed := by
        intro chars t hmem
        obtain ⟨c, -, rfl⟩ := List.mem_map.1 hmem
        trivial
      simp only [Term.normal_text, length_normalAll, isSome_normalOption]
      generalize cutChars front.length back.length s = cut
      refine .ite _ (.bind (.bind ?_ ?_) ?_)
      · have hfirst := extendEach?_normal hdecls front hpattern.1.1 (hchars cut.1)
        rwa [map_normal_ofChar] at hfirst
      · have hlast := extendEach?_normal hdecls back hpattern.2 (hchars cut.2.2)
        rwa [map_normal_ofChar] at hlast
      · exact extendRest?_normal hdecls rest hpattern.1.2 (Term.wellKeyed_text cut.2.1)
    | _ => exact .none
  | .text segments =>
    simp only [normal, extend?, Declarations.resolve_normal]
    generalize decls.resolve term = shape
    cases shape with
    | text s =>
      simp only [Term.normal_text]
      cases Segment.cut? segments s with
      | none => exact .none
      | some runs => exact mirrors_runs runs
    | _ => exact .none
  | .composite fields =>
    have hwell := hdecls.resolve hterm
    simp only [normal, extend?, Declarations.resolve_normal]
    generalize decls.resolve term = shape at hwell
    cases shape with
    | composite entries =>
      rw [Term.wellKeyed_composite] at hwell
      simp only [Term.normal_composite]
      exact extendFields?_normal hdecls fields hpattern hwell.1 hwell.2
    | _ => exact .none
  | .apply head args =>
    have hwell := hdecls.resolve hterm
    simp only [normal, extend?, Declarations.resolve_normal]
    generalize decls.resolve term = shape at hwell
    cases shape with
    | apply actual items =>
      simp only [Term.normal_apply, length_normalAll, List.length_map]
      exact .ite _ (extendEach?_normal hdecls args hpattern (Term.wellKeyed_apply.1 hwell))
    | _ => exact .none
  | .function k receiver params result =>
    simp only [terms, List.forall_mem_append] at hpattern
    have hwell := hdecls.resolve hterm
    simp only [normal, extend?, Declarations.resolve_normal]
    generalize decls.resolve term = shape at hwell
    cases shape with
    | function actual given items value =>
      rw [Term.wellKeyed_function] at hwell
      have hgiven : (given.getD .unknown).WellKeyed ∧
          (given.map Term.normal).getD .unknown = (given.getD .unknown).normal := by
        cases given with
        | none => exact ⟨trivial, rfl⟩
        | some t => exact ⟨hwell.1 t rfl, rfl⟩
      simp only [Term.normal_function, hgiven.2, ← Term.normal_seq]
      refine .ite _ (.bind (.bind ?_ ?_) ?_)
      · exact extendRest?_normal hdecls receiver hpattern.1.1 hgiven.1
      · exact extend?_normal hdecls params hpattern.1.2 (Term.wellKeyed_seq.2 hwell.2.1)
      · exact extend?_normal hdecls result hpattern.2 hwell.2.2
    | _ => exact .none
termination_by structural pattern

theorem extendEach?_normal (hdecls : decls.WellKeyed) (patterns : List Pattern) {terms : List Term}
    (hpatterns : ∀ t ∈ termsAll patterns, t.WellKeyed) (hterms : ∀ t ∈ terms, t.WellKeyed) :
    Mirrors (extendEach? decls patterns terms)
      (extendEach? decls.normal (normalAll patterns) (terms.map Term.normal)) := by
  match patterns, terms with
  | [], _ => exact .some
  | _ :: _, [] => exact .some
  | pattern :: patterns, term :: terms =>
    simp only [termsAll, List.forall_mem_append] at hpatterns
    rw [List.forall_mem_cons] at hterms
    exact .bind (extend?_normal hdecls pattern hpatterns.1 hterms.1)
      (extendEach?_normal hdecls patterns hpatterns.2 hterms.2)
termination_by structural patterns

theorem extendRest?_normal (hdecls : decls.WellKeyed) (pattern : Option Pattern) {term : Term}
    (hpattern : ∀ t ∈ termsOption pattern, t.WellKeyed) (hterm : term.WellKeyed) :
    Mirrors (extendRest? decls pattern term)
      (extendRest? decls.normal (normalOption pattern) term.normal) := by
  match pattern with
  | none => exact .some
  | some pattern => exact extend?_normal hdecls pattern hpattern hterm
termination_by structural pattern

theorem extendFirst?_normal (hdecls : decls.WellKeyed) (patterns : List Pattern) {term : Term}
    (hpatterns : ∀ t ∈ termsAll patterns, t.WellKeyed) (hterm : term.WellKeyed) :
    Mirrors (extendFirst? decls patterns term)
      (extendFirst? decls.normal (normalAll patterns) term.normal) := by
  match patterns with
  | [] => exact .none
  | pattern :: patterns =>
    simp only [termsAll, List.forall_mem_append] at hpatterns
    exact .orElse (extend?_normal hdecls pattern hpatterns.1 hterm)
      (extendFirst?_normal hdecls patterns hpatterns.2 hterm)
termination_by structural patterns

theorem extendFields?_normal (hdecls : decls.WellKeyed) (fields : List (FieldPattern Pattern))
    {entries : Composite} (hfields : ∀ t ∈ termsFields fields, t.WellKeyed)
    (hdistinct : entries.Distinct) (hentries : ∀ entry ∈ entries, entry.value.WellKeyed) :
    Mirrors (extendFields? decls fields entries)
      (extendFields? decls.normal (normalFields fields) entries.normal) := by
  match fields with
  | [] => exact .some
  | ⟨key, presence, value⟩ :: fields =>
    simp only [termsFields, List.forall_mem_append] at hfields
    simp only [normalFields, extendFields?, hdistinct.get?_normal, select?_map_normal]
    cases hselect : presence.select? (entries.get? key) with
    | none => exact .none
    | some term =>
      have hterm : term.WellKeyed := forall_of_select? trivial hselect fun entry hget =>
        hentries entry (hdistinct.get?_eq_some_iff.1 hget).1
      exact .bind (extend?_normal hdecls value hfields.1 hterm)
        (extendFields?_normal hdecls fields hfields.2 hdistinct hentries)
termination_by structural fields

end

/-- A pattern matches a term as their normal forms do. -/
theorem captures?_normal (hdecls : decls.WellKeyed) {pattern : Pattern} (hpattern : pattern.WellKeyed)
    (hterm : term.WellKeyed) :
    pattern.normal.captures? decls.normal term.normal =
        (pattern.captures? decls term).map Captures.normal ∧
      ∀ captures ∈ pattern.captures? decls term, captures.WellKeyed :=
  extend?_normal hdecls pattern hpattern hterm ∅ wellKeyed_empty

/-! ## Equal patterns -/

mutual

/-- Equal patterns have one normal form. -/
theorem normal_eq_of_beq (p : Pattern) {q : Pattern} (hp : ∀ t ∈ p.terms, t.WellKeyed)
    (hq : ∀ t ∈ q.terms, t.WellKeyed) (h : p.beq q = true) : p.normal = q.normal := by
  match p with
  | .any => cases q <;> first | rfl | cases h
  | .bind a => cases q <;> simp_all [beq, normal]
  | .named a p =>
    cases q with
    | named b q =>
      rw [beq, Bool.and_eq_true, beq_iff_eq] at h
      rw [normal, normal, h.1, normal_eq_of_beq p (q := q) hp hq h.2]
    | _ => cases h
  | .literal s =>
    cases q with
    | literal t =>
      have heq := (Term.beq_iff (hp s List.mem_cons_self) (hq t List.mem_cons_self)).1 h
      rw [normal, normal, heq]
    | _ => cases h
  | .kind k => cases q <;> simp_all [beq, normal]
  | .fits s =>
    cases q with
    | fits t =>
      have heq := (Term.beq_iff (hp s List.mem_cons_self) (hq t List.mem_cons_self)).1 h
      rw [normal, normal, heq]
    | _ => cases h
  | .alt ps =>
    cases q with
    | alt qs => rw [normal, normal, normalAll_eq_of_beq ps hp hq h]
    | _ => cases h
  | .seq f r b =>
    cases q with
    | seq f' r' b' =>
      simp only [terms, List.forall_mem_append] at hp hq
      rw [beq, Bool.and_eq_true, Bool.and_eq_true] at h
      rw [normal, normal, normalAll_eq_of_beq f hp.1.1 hq.1.1 h.1.1,
        normalOption_eq_of_beq r hp.1.2 hq.1.2 h.1.2, normalAll_eq_of_beq b hp.2 hq.2 h.2]
    | _ => cases h
  | .chars f r b =>
    cases q with
    | chars f' r' b' =>
      simp only [terms, List.forall_mem_append] at hp hq
      rw [beq, Bool.and_eq_true, Bool.and_eq_true] at h
      rw [normal, normal, normalAll_eq_of_beq f hp.1.1 hq.1.1 h.1.1,
        normalOption_eq_of_beq r hp.1.2 hq.1.2 h.1.2, normalAll_eq_of_beq b hp.2 hq.2 h.2]
    | _ => cases h
  | .text segments => cases q <;> simp_all [beq, normal]
  | .composite fs =>
    cases q with
    | composite gs => rw [normal, normal, normalFields_eq_of_beq fs hp hq h]
    | _ => cases h
  | .apply f ps =>
    cases q with
    | apply g qs =>
      rw [beq, Bool.and_eq_true, beq_iff_eq] at h
      rw [normal, normal, h.1, normalAll_eq_of_beq ps hp hq h.2]
    | _ => cases h
  | .function k r p t =>
    cases q with
    | function k' r' p' t' =>
      simp only [terms, List.forall_mem_append] at hp hq
      rw [beq, Bool.and_eq_true, Bool.and_eq_true, Bool.and_eq_true, beq_iff_eq] at h
      rw [normal, normal, h.1.1.1, normalOption_eq_of_beq r hp.1.1 hq.1.1 h.1.1.2,
        normal_eq_of_beq p hp.1.2 hq.1.2 h.1.2, normal_eq_of_beq t hp.2 hq.2 h.2]
    | _ => cases h
termination_by structural p

theorem normalAll_eq_of_beq (ps : List Pattern) {qs : List Pattern}
    (hp : ∀ t ∈ termsAll ps, t.WellKeyed) (hq : ∀ t ∈ termsAll qs, t.WellKeyed)
    (h : beqAll ps qs = true) : normalAll ps = normalAll qs := by
  match ps, qs with
  | [], [] => rfl
  | p :: ps, q :: qs =>
    simp only [termsAll, List.forall_mem_append] at hp hq
    rw [beqAll, Bool.and_eq_true] at h
    rw [normalAll, normalAll, normal_eq_of_beq p hp.1 hq.1 h.1, normalAll_eq_of_beq ps hp.2 hq.2 h.2]
termination_by structural ps

theorem normalOption_eq_of_beq (p : Option Pattern) {q : Option Pattern}
    (hp : ∀ t ∈ termsOption p, t.WellKeyed) (hq : ∀ t ∈ termsOption q, t.WellKeyed)
    (h : beqOption p q = true) : normalOption p = normalOption q := by
  match p, q with
  | none, none => rfl
  | some p, some q => rw [normalOption, normalOption, normal_eq_of_beq p hp hq h]
termination_by structural p

theorem normalFields_eq_of_beq (fs : List (FieldPattern Pattern)) {gs : List (FieldPattern Pattern)}
    (hp : ∀ t ∈ termsFields fs, t.WellKeyed) (hq : ∀ t ∈ termsFields gs, t.WellKeyed)
    (h : beqFields fs gs = true) : normalFields fs = normalFields gs := by
  match fs, gs with
  | [], [] => rfl
  | ⟨key, presence, value⟩ :: fs, ⟨key', presence', value'⟩ :: gs =>
    simp only [termsFields, List.forall_mem_append] at hp hq
    rw [beqFields, Bool.and_eq_true, Bool.and_eq_true, Bool.and_eq_true, beq_iff_eq, beq_iff_eq] at h
    obtain ⟨⟨⟨rfl, rfl⟩, hvalue⟩, hrest⟩ := h
    rw [normalFields, normalFields, normal_eq_of_beq value hp.1 hq.1 hvalue,
      normalFields_eq_of_beq fs hp.2 hq.2 hrest]
termination_by structural fs

end

end Pattern

end Reshape
