import Reshape.Pattern.Equality
import Reshape.Proofs.Pattern.Binding
import Reshape.Proofs.Term.Outline

/-!
# What a match tells of its captures

A pattern that takes a sequence apart captures sequences and their elements, and one that takes a
text apart captures texts. The scope of a pattern lists what a match tells of each capture, when an
outline of the term is known before (`Pattern.scope`). It is true of the captures of every match
(`Pattern.fit_of_captures?`).
-/

namespace Reshape

/-- What is known of captures. -/
abbrev Scope := List (String × Aspect)

/-- The captures bind all names of the scope, to terms of which it is true. -/
def Captures.Fit (decls : Declarations) (scope : Scope) (captures : Captures) : Prop :=
  ∀ fact ∈ scope, ∃ term, captures.get? fact.1 = some term ∧ fact.2.Holds decls term

namespace Pattern

/-- The kind of all terms that match, if there is just one. -/
def kind? : Pattern → Option Term.Kind
  | .named _ inner => inner.kind?
  | .kind k => some k
  | .seq .. => some .seq
  | .chars .. | .text _ => some .text
  | .composite _ => some .composite
  | .apply .. => some .apply
  | .function .. => some .function
  | .any | .bind _ | .literal _ | .fits _ | .alt _ => none

/-- What is known of a term with the outline if it matches. -/
def aspect (pattern : Pattern) : Outline → Aspect
  | .any => (pattern.kind?.map .behind).getD (.own .any)
  | outline => .own outline

mutual

/-- What a match tells of captures, if the term has the outline. Of an alternation nothing is told. -/
def scope : Pattern → Outline → Scope
  | .any, _ | .literal _, _ | .kind _, _ | .fits _, _ | .alt _, _ => []
  | .bind name, outline => [(name, .own outline)]
  | .named name inner, outline => scope inner outline ++ [(name, inner.aspect outline)]
  | .seq front rest back, outline =>
    scopeEach front outline.items ++ scopeEach back [] ++ scopeOption rest (.kind .seq)
  | .chars front rest back, _ =>
    scopeEach front (List.replicate front.length (.kind .text)) ++
      scopeEach back (List.replicate back.length (.kind .text)) ++ scopeOption rest (.kind .text)
  | .text segments, _ =>
    (segments.filterMap Segment.name?).map fun name => (name, .own (.kind .text))
  | .composite fields, _ => scopeFields fields
  | .apply _ args, _ => scopeEach args []
  | .function _ receiver params result, _ =>
    scopeOption receiver .any ++ scope params (.kind .seq) ++ scope result .any
termination_by structural pattern => pattern

/-- What is told by a list of patterns that all match, if the first terms have the outlines. -/
def scopeEach : List Pattern → List Outline → Scope
  | [], _ => []
  | pattern :: patterns, outlines =>
    scope pattern (outlines.headD .any) ++ scopeEach patterns outlines.tail
termination_by structural patterns => patterns

/-- What is told by a pattern that may be missing. -/
def scopeOption : Option Pattern → Outline → Scope
  | none, _ => []
  | some pattern, outline => scope pattern outline
termination_by structural pattern => pattern

/-- What is told by the patterns of fields. -/
def scopeFields : List (FieldPattern Pattern) → Scope
  | [] => []
  | ⟨_, _, value⟩ :: fields => scope value .any ++ scopeFields fields
termination_by structural fields => fields

end

end Pattern

/-! ## Matches -/

namespace Captures

variable {decls : Declarations} {scope more : Scope} {captures extended : Captures}

theorem fit_append :
    captures.Fit decls (scope ++ more) ↔ captures.Fit decls scope ∧ captures.Fit decls more :=
  List.forall_mem_append

theorem fit_nil (decls : Declarations) (captures : Captures) : captures.Fit decls [] :=
  List.forall_mem_nil _

/-- A name that was bound before is bound to an equal term, of which the same is known. -/
theorem Fit.bind? {name : String} {term : Term} {aspect : Aspect} (h : captures.Fit decls scope)
    (haspect : aspect.Holds decls term) (hbind : captures.bind? name term = some extended) :
    extended.Fit decls (scope ++ [(name, aspect)]) := by
  refine fit_append.2 ⟨fun fact hfact => ?_, List.forall_mem_singleton.2 ?_⟩
  · obtain ⟨bound, hbound, hholds⟩ := h fact hfact
    exact ⟨bound, get?_of_bind? hbind hbound, hholds⟩
  · obtain ⟨bound, hbound, rfl | hbeq⟩ := exists_of_bind? hbind
    · exact ⟨bound, hbound, haspect⟩
    · exact ⟨bound, hbound, (Aspect.holds_iff_of_beq hbeq).2 haspect⟩

theorem Fit.foldlM_bind? {runs : CutRuns} (h : captures.Fit decls scope)
    (hruns : runs.foldlM (fun (bound : Captures) (name, run) => bound.bind? name (.text run)) captures =
      some extended) :
    extended.Fit decls (scope ++ (runs.map (·.1)).map fun name => (name, .own (.kind .text))) := by
  induction runs generalizing captures scope with
  | nil =>
    cases hruns
    simpa using h
  | cons run runs ih =>
    obtain ⟨bound, hbind, hrest⟩ := Option.bind_eq_some_iff.1 hruns
    have htext : (Aspect.own (.kind .text)).Holds decls (.text run.2) := rfl
    simpa using ih (h.bind? htext hbind) hrest

end Captures

namespace Outline

/-- The elements that a term with the outline has, or stands for, have the outlines of elements. -/
theorem admitsEach_items {decls : Declarations} {outline : Outline} {term : Term} {items : List Term}
    (h : outline.admits term = true) (hitems : decls.resolve term = .seq items) :
    admitsEach outline.items items = true := by
  cases outline with
  | tuple outlines =>
    cases term with
    | seq xs =>
      cases hitems
      exact h
    | _ => cases h
  | _ => exact admitsEach_nil items

theorem admitsEach_take {outlines : List Outline} {items : List Term} (n : Nat)
    (h : admitsEach outlines items = true) : admitsEach outlines (items.take n) = true := by
  induction n generalizing outlines items with
  | zero => cases outlines <;> rfl
  | succ n ih =>
    match outlines, items with
    | [], _ => exact admitsEach_nil _
    | _ :: _, [] => rfl
    | outline :: outlines, item :: items =>
      rw [admitsEach, Bool.and_eq_true] at h
      rw [List.take_succ_cons, admitsEach, h.1, ih h.2]
      rfl

theorem admitsEach_ofChar (n : Nat) (chars : List Char) :
    admitsEach (List.replicate n (.kind .text)) (chars.map .ofChar) = true := by
  induction n generalizing chars with
  | zero => exact admitsEach_nil _
  | succ n ih =>
    cases chars with
    | nil => rfl
    | cons c rest => exact ih rest

theorem admits_headD {outlines : List Outline} {item : Term} {items : List Term}
    (h : admitsEach outlines (item :: items) = true) :
    (outlines.headD .any).admits item = true ∧ admitsEach outlines.tail items = true := by
  cases outlines with
  | nil => exact ⟨rfl, admitsEach_nil items⟩
  | cons outline outlines => exact Bool.and_eq_true _ _ ▸ h

end Outline

namespace Pattern

open Captures

variable {decls : Declarations}

/-- A term that matches stands for one of the kind of the pattern. -/
theorem kind_of_extend? : ∀ (pattern : Pattern) {term : Term} {kind : Term.Kind}
    {captures extended : Captures}, pattern.kind? = some kind →
    pattern.extend? decls term captures = some extended → (decls.resolve term).kind = kind
  | .named _ inner, _, _, _, _, hkind, h => by
    obtain ⟨bound, hinner, -⟩ := Option.bind_eq_some_iff.1 h
    exact kind_of_extend? inner hkind hinner
  | .kind k, _, _, _, _, hkind, h => by
    cases hkind
    rw [extend?] at h
    split at h
    · assumption
    · cases h
  | .seq .., _, _, _, _, hkind, h | .chars .., _, _, _, _, hkind, h | .text _, _, _, _, _, hkind, h
  | .composite _, _, _, _, _, hkind, h | .apply .., _, _, _, _, hkind, h
  | .function .., _, _, _, _, hkind, h => by
    cases hkind
    rw [extend?] at h
    split at h
    · rename_i hresolve
      rw [hresolve]
      rfl
    · cases h

theorem holds_aspect {pattern : Pattern} {outline : Outline} {term : Term}
    {captures extended : Captures} (houtline : outline.admits term = true)
    (h : pattern.extend? decls term captures = some extended) :
    (pattern.aspect outline).Holds decls term := by
  cases outline with
  | any =>
    cases hkind : pattern.kind? with
    | none => rw [aspect, hkind]; rfl
    | some kind =>
      rw [aspect, hkind]
      exact kind_of_extend? pattern hkind h
  | kind k => exact houtline
  | tuple outlines => exact houtline

mutual

/-- What a match tells of captures is true, whatever was known before. -/
theorem extend?_fit (pattern : Pattern) (outline : Outline) {term : Term} {known : Scope}
    {captures extended : Captures} (houtline : outline.admits term = true)
    (hknown : captures.Fit decls known)
    (h : pattern.extend? decls term captures = some extended) :
    extended.Fit decls (known ++ pattern.scope outline) := by
  match pattern with
  | .any =>
    cases h
    exact fit_append.2 ⟨hknown, fit_nil decls captures⟩
  | .bind name =>
    have haspect : (Aspect.own outline).Holds decls term := houtline
    exact hknown.bind? haspect h
  | .named name inner =>
    obtain ⟨bound, hinner, hbind⟩ := Option.bind_eq_some_iff.1 h
    have hbound := extend?_fit inner outline houtline hknown hinner
    rw [scope, ← List.append_assoc]
    exact hbound.bind? (holds_aspect houtline hinner) hbind
  | .literal expected | .kind k | .fits target =>
    rw [extend?] at h
    split at h <;> cases h
    exact fit_append.2 ⟨hknown, fit_nil decls captures⟩
  | .alt alternatives =>
    exact fit_append.2 ⟨extendFirst?_fit alternatives hknown h, fit_nil decls extended⟩
  | .seq front rest back =>
    rw [extend?] at h
    split at h
    · rename_i items hitems
      split at h
      · rename_i htakes
        obtain ⟨hfront, hback⟩ := length_cutEnds htakes
        have hfirst : Outline.admitsEach outline.items (cutEnds front.length back.length items).1 =
            true := by
          rw [cutEnds_eq]
          exact Outline.admitsEach_take _ (Outline.admitsEach_items houtline hitems)
        generalize cutEnds front.length back.length items = cut at h hfront hback hfirst
        obtain ⟨first, middle, last⟩ := cut
        obtain ⟨ended, hends, hmiddle⟩ := Option.bind_eq_some_iff.1 h
        obtain ⟨begun, hbegun, hended⟩ := Option.bind_eq_some_iff.1 hends
        have hfit := extendEach?_fit front hfront hfirst hknown hbegun
        have hfit := extendEach?_fit back hback (Outline.admitsEach_nil last) hfit hended
        have hfit := extendRest?_fit rest (.kind .seq) rfl hfit hmiddle
        simpa only [scope, List.append_assoc] using hfit
      · cases h
    · cases h
  | .chars front rest back =>
    rw [extend?] at h
    split at h
    · rename_i s _
      split at h
      · rename_i htakes
        obtain ⟨hfront, hback⟩ := length_cutChars htakes
        generalize cutChars front.length back.length s = cut at h hfront hback
        obtain ⟨first, middle, last⟩ := cut
        obtain ⟨ended, hends, hmiddle⟩ := Option.bind_eq_some_iff.1 h
        obtain ⟨begun, hbegun, hended⟩ := Option.bind_eq_some_iff.1 hends
        have hfit := extendEach?_fit front ((List.length_map Term.ofChar).trans hfront)
          (Outline.admitsEach_ofChar front.length first) hknown hbegun
        have hfit := extendEach?_fit back ((List.length_map Term.ofChar).trans hback)
          (Outline.admitsEach_ofChar back.length last) hfit hended
        have hfit := extendRest?_fit rest (.kind .text) rfl hfit hmiddle
        simpa only [scope, List.append_assoc] using hfit
      · cases h
    · cases h
  | .text segments =>
    rw [extend?] at h
    split at h
    · obtain ⟨runs, hcut, hruns⟩ := Option.bind_eq_some_iff.1 h
      rw [scope, ← Segment.map_fst_of_cut? hcut]
      exact hknown.foldlM_bind? hruns
    · cases h
  | .composite fields =>
    rw [extend?] at h
    split at h
    · exact extendFields?_fit fields hknown h
    · cases h
  | .apply head args =>
    rw [extend?] at h
    split at h
    · split at h
      · rename_i hargs
        simp only [Bool.and_eq_true, decide_eq_true_eq] at hargs
        exact extendEach?_fit args hargs.2 (Outline.admitsEach_nil _) hknown h
      · cases h
    · cases h
  | .function k receiver params result =>
    rw [extend?] at h
    split at h
    · split at h
      · obtain ⟨ended, hends, hresult⟩ := Option.bind_eq_some_iff.1 h
        obtain ⟨begun, hreceiver, hparams⟩ := Option.bind_eq_some_iff.1 hends
        have hfit := extendRest?_fit receiver .any rfl hknown hreceiver
        have hfit := extend?_fit params (.kind .seq) rfl hfit hparams
        have hfit := extend?_fit result .any rfl hfit hresult
        simpa only [scope, List.append_assoc] using hfit
      · cases h
    · cases h
termination_by structural pattern

theorem extendEach?_fit (patterns : List Pattern) {outlines : List Outline} {terms : List Term}
    {known : Scope} {captures extended : Captures} (hlength : terms.length = patterns.length)
    (houtlines : Outline.admitsEach outlines terms = true) (hknown : captures.Fit decls known)
    (h : extendEach? decls patterns terms captures = some extended) :
    extended.Fit decls (known ++ scopeEach patterns outlines) := by
  match patterns, terms with
  | [], _ =>
    cases h
    exact fit_append.2 ⟨hknown, fit_nil decls captures⟩
  | pattern :: patterns, term :: terms =>
    obtain ⟨houtline, hrest⟩ := Outline.admits_headD houtlines
    obtain ⟨bound, hfirst, hnext⟩ := Option.bind_eq_some_iff.1 h
    have hfit := extend?_fit pattern _ houtline hknown hfirst
    have hfit := extendEach?_fit patterns (Nat.succ.inj hlength) hrest hfit hnext
    simpa only [scopeEach, List.append_assoc] using hfit
termination_by structural patterns

theorem extendRest?_fit (pattern : Option Pattern) (outline : Outline) {term : Term} {known : Scope}
    {captures extended : Captures} (houtline : outline.admits term = true)
    (hknown : captures.Fit decls known)
    (h : extendRest? decls pattern term captures = some extended) :
    extended.Fit decls (known ++ scopeOption pattern outline) := by
  match pattern with
  | none =>
    cases h
    exact fit_append.2 ⟨hknown, fit_nil decls captures⟩
  | some pattern => exact extend?_fit pattern outline houtline hknown h
termination_by structural pattern

/-- Whichever alternative matches, what was known stays true. -/
theorem extendFirst?_fit (alternatives : List Pattern) {term : Term} {known : Scope}
    {captures extended : Captures} (hknown : captures.Fit decls known)
    (h : extendFirst? decls alternatives term captures = some extended) :
    extended.Fit decls known := by
  match alternatives with
  | [] => cases h
  | pattern :: patterns =>
    rw [extendFirst?] at h
    cases hfirst : pattern.extend? decls term captures with
    | some found =>
      simp only [hfirst, Option.some.injEq] at h
      subst h
      exact (fit_append.1 (extend?_fit pattern .any rfl hknown hfirst)).1
    | none =>
      simp only [hfirst] at h
      exact extendFirst?_fit patterns hknown h
termination_by structural alternatives

theorem extendFields?_fit (fields : List (FieldPattern Pattern)) {entries : Composite} {known : Scope}
    {captures extended : Captures} (hknown : captures.Fit decls known)
    (h : extendFields? decls fields entries captures = some extended) :
    extended.Fit decls (known ++ scopeFields fields) := by
  match fields with
  | [] =>
    cases h
    exact fit_append.2 ⟨hknown, fit_nil decls captures⟩
  | ⟨key, presence, value⟩ :: fields =>
    rw [extendFields?] at h
    split at h
    · obtain ⟨bound, hvalue, hrest⟩ := Option.bind_eq_some_iff.1 h
      have hfit := extend?_fit value .any rfl hknown hvalue
      have hfit := extendFields?_fit fields hfit hrest
      simpa only [scopeFields, List.append_assoc] using hfit
    · cases h
termination_by structural fields

end

/-- What a match tells of captures is true. -/
theorem fit_of_captures? {pattern : Pattern} {outline : Outline} {term : Term} {captures : Captures}
    (houtline : outline.admits term = true) (h : pattern.captures? decls term = some captures) :
    captures.Fit decls (pattern.scope outline) :=
  extend?_fit pattern outline houtline (fit_nil decls ∅) h

/-! ## Equal patterns -/

theorem kind?_eq_of_beq : ∀ {p q : Pattern}, p.beq q = true → p.kind? = q.kind?
  | .named a inner, q, h => by
    cases q with
    | named b other =>
      rw [beq, Bool.and_eq_true] at h
      exact kind?_eq_of_beq (p := inner) (q := other) h.2
    | _ => cases h
  | .kind k, q, h => by
    cases q with
    | kind l => rw [beq_iff_eq.1 (show (k == l) = true from h)]
    | _ => cases h
  | .any, q, h | .bind _, q, h | .literal _, q, h | .fits _, q, h | .alt _, q, h | .seq .., q, h
  | .chars .., q, h | .text _, q, h | .composite _, q, h | .apply .., q, h | .function .., q, h => by
    cases q <;> first | rfl | cases h

theorem length_eq_of_beqAll : ∀ {ps qs : List Pattern}, beqAll ps qs = true → ps.length = qs.length
  | [], [], _ => rfl
  | p :: ps, q :: qs, h => by
    rw [beqAll, Bool.and_eq_true] at h
    rw [List.length_cons, List.length_cons, length_eq_of_beqAll h.2]

mutual

/-- Matches of equal patterns tell the same. -/
theorem scope_eq_of_beq (p : Pattern) {q : Pattern} (outline : Outline) (h : p.beq q = true) :
    p.scope outline = q.scope outline := by
  match p with
  | .any | .literal _ | .kind _ | .fits _ | .alt _ => cases q <;> first | rfl | cases h
  | .bind a =>
    cases q with
    | bind b => rw [beq_iff_eq.1 (show (a == b) = true from h)]
    | _ => cases h
  | .named a p =>
    cases q with
    | named b q =>
      rw [beq, Bool.and_eq_true, beq_iff_eq] at h
      have haspect : p.aspect outline = q.aspect outline := by
        cases outline <;> simp only [aspect, kind?_eq_of_beq h.2]
      rw [scope, scope, h.1, haspect, scope_eq_of_beq p outline h.2]
    | _ => cases h
  | .seq f r b =>
    cases q with
    | seq f' r' b' =>
      rw [beq, Bool.and_eq_true, Bool.and_eq_true] at h
      rw [scope, scope, scopeEach_eq_of_beqAll f _ h.1.1, scopeEach_eq_of_beqAll b _ h.2,
        scopeOption_eq_of_beqOption r _ h.1.2]
    | _ => cases h
  | .chars f r b =>
    cases q with
    | chars f' r' b' =>
      rw [beq, Bool.and_eq_true, Bool.and_eq_true] at h
      rw [scope, scope, scopeEach_eq_of_beqAll f _ h.1.1, scopeEach_eq_of_beqAll b _ h.2,
        scopeOption_eq_of_beqOption r _ h.1.2, length_eq_of_beqAll h.1.1, length_eq_of_beqAll h.2]
    | _ => cases h
  | .text s =>
    cases q with
    | text t => rw [beq_iff_eq.1 (show (s == t) = true from h)]
    | _ => cases h
  | .composite fs =>
    cases q with
    | composite gs => exact scopeFields_eq_of_beqFields fs h
    | _ => cases h
  | .apply f ps =>
    cases q with
    | apply g qs =>
      rw [beq, Bool.and_eq_true] at h
      rw [scope, scope, scopeEach_eq_of_beqAll ps _ h.2]
    | _ => cases h
  | .function k r p t =>
    cases q with
    | function k' r' p' t' =>
      rw [beq, Bool.and_eq_true, Bool.and_eq_true, Bool.and_eq_true] at h
      rw [scope, scope, scopeOption_eq_of_beqOption r _ h.1.1.2, scope_eq_of_beq p _ h.1.2,
        scope_eq_of_beq t _ h.2]
    | _ => cases h
termination_by structural p

theorem scopeEach_eq_of_beqAll (ps : List Pattern) {qs : List Pattern} (outlines : List Outline)
    (h : beqAll ps qs = true) : scopeEach ps outlines = scopeEach qs outlines := by
  match ps, qs with
  | [], [] => rfl
  | p :: ps, q :: qs =>
    rw [beqAll, Bool.and_eq_true] at h
    rw [scopeEach, scopeEach, scope_eq_of_beq p _ h.1, scopeEach_eq_of_beqAll ps _ h.2]
termination_by structural ps

theorem scopeOption_eq_of_beqOption (p : Option Pattern) {q : Option Pattern} (outline : Outline)
    (h : beqOption p q = true) : scopeOption p outline = scopeOption q outline := by
  match p, q with
  | none, none => rfl
  | some p, some q => exact scope_eq_of_beq p outline h
termination_by structural p

theorem scopeFields_eq_of_beqFields (fs : List (FieldPattern Pattern))
    {gs : List (FieldPattern Pattern)} (h : beqFields fs gs = true) :
    scopeFields fs = scopeFields gs := by
  match fs, gs with
  | [], [] => rfl
  | ⟨key, presence, value⟩ :: fs, ⟨key', presence', value'⟩ :: gs =>
    simp only [beqFields, Bool.and_eq_true] at h
    rw [scopeFields, scopeFields, scope_eq_of_beq value _ h.1.2, scopeFields_eq_of_beqFields fs h.2]
termination_by structural fs

end

end Pattern

end Reshape
