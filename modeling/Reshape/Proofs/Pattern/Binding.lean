import Reshape.Pattern.Match

/-!
# What a match binds

A match keeps the captures that it starts from, and binds every name that the
pattern promises to bind (`Pattern.extend?_binds`): the names of an alternation
that all its alternatives bind, the names in a cut of a text, and those under a
field that is absent.
-/

namespace Reshape

namespace Captures

/-- What is bound stays bound to the same terms. -/
def KeptIn (captures extended : Captures) : Prop :=
  ∀ name term, captures.get? name = some term → extended.get? name = some term

/-- `extended` keeps what `captures` binds, and binds `names` as well. -/
structure Extends (names : List String) (captures extended : Captures) : Prop where
  kept : captures.KeptIn extended
  binds : ∀ name ∈ names, extended.contains name = true

variable {names more : List String} {captures extended final : Captures}

theorem KeptIn.refl (captures : Captures) : captures.KeptIn captures := fun _ _ h => h

theorem KeptIn.trans (h : captures.KeptIn extended) (h' : extended.KeptIn final) :
    captures.KeptIn final :=
  fun name term hget => h' name term (h name term hget)

theorem KeptIn.contains (h : captures.KeptIn extended) {name : String}
    (hname : captures.contains name = true) : extended.contains name = true := by
  obtain ⟨bound, hbound⟩ := Option.isSome_iff_exists.1 hname
  exact Option.isSome_iff_exists.2 ⟨bound, h name bound hbound⟩

theorem Extends.refl (captures : Captures) : Extends [] captures captures :=
  ⟨.refl captures, List.forall_mem_nil _⟩

theorem Extends.trans (h : Extends names captures extended) (h' : Extends more extended final) :
    Extends (names ++ more) captures final := by
  refine ⟨h.kept.trans h'.kept, fun name hname => ?_⟩
  rcases List.mem_append.1 hname with hname | hname
  · exact h'.kept.contains (h.binds name hname)
  · exact h'.binds name hname

theorem Extends.mono (h : Extends names captures extended) (hmore : ∀ name ∈ more, name ∈ names) :
    Extends more captures extended :=
  ⟨h.kept, fun name hname => h.binds name (hmore name hname)⟩

theorem extends_of_bind? {name : String} {term : Term} (h : captures.bind? name term = some extended) :
    Extends [name] captures extended := by
  refine ⟨fun _ _ => get?_of_bind? h, List.forall_mem_singleton.2 ?_⟩
  obtain ⟨bound, hbound, -⟩ := exists_of_bind? h
  exact Option.isSome_iff_exists.2 ⟨bound, hbound⟩

theorem extends_of_foldlM_bind? {runs : CutRuns} {captures extended : Captures}
    (h : runs.foldlM (fun (bound : Captures) (name, run) => bound.bind? name (.text run)) captures =
      some extended) : Extends (runs.map (·.1)) captures extended := by
  induction runs generalizing captures with
  | nil =>
    cases h
    exact .refl _
  | cons run runs ih =>
    obtain ⟨bound, hbind, hrest⟩ := Option.bind_eq_some_iff.1 h
    exact (extends_of_bind? hbind).trans (ih hrest)

end Captures

/-! ## Cuts -/

namespace Segment

/-- The name of a run. -/
def name? : Segment → Option String
  | .run name => name
  | .literal _ => none

theorem map_record (name : Option String) (piece : String) (found : CutRuns) :
    (record name piece found).map (·.1) = name.toList ++ found.map (·.1) := by
  cases name <;> rfl

/-- A cut has a piece for every named run, in order. -/
theorem map_fst_of_cut? : ∀ {segments : List Segment} {text : String} {runs : CutRuns},
    cut? segments text = some runs → runs.map (·.1) = segments.filterMap name?
  | [], text, runs, h => by
    rw [cut?] at h
    split at h <;> cases h
    rfl
  | .literal alternatives :: segments, text, runs, h => by
    rw [cut?] at h
    obtain ⟨literal, -, hliteral⟩ := List.exists_of_findSome?_eq_some h
    cases hafter : Text.afterStart? literal text with
    | none => simp only [hafter, reduceCtorEq] at hliteral
    | some after =>
      simp only [hafter] at hliteral
      show runs.map (·.1) = segments.filterMap name?
      exact map_fst_of_cut? hliteral
  | [.run name], text, runs, h => by
    rw [cut?] at h
    cases h
    rw [map_record]
    cases name <;> rfl
  | .run name :: .run next :: segments, text, runs, h => by
    rw [cut?] at h
    split at h
    · cases h
    · obtain ⟨found, hcut, rfl⟩ := Option.map_eq_some_iff.1 h
      rw [map_record, map_fst_of_cut? hcut]
      cases name <;> rfl
  | .run name :: .literal alternatives :: segments, text, runs, h => by
    rw [cut?] at h
    obtain ⟨literal, -, hliteral⟩ := List.exists_of_findSome?_eq_some h
    cases hstop : stopAt? segments.isEmpty literal text with
    | none => simp only [hstop, reduceCtorEq] at hliteral
    | some parts =>
      obtain ⟨piece, after⟩ := parts
      simp only [hstop, Option.map_eq_some_iff] at hliteral
      obtain ⟨found, hcut, rfl⟩ := hliteral
      rw [map_record, map_fst_of_cut? hcut]
      cases name <;> rfl

end Segment

/-! ## Matches -/

namespace Pattern

variable {decls : Declarations}

theorem length_cutEnds {α : Type} {front back : Nat} {isOpen : Bool} {items : List α}
    (h : takesLength front back isOpen items.length = true) :
    (cutEnds front back items).1.length = front ∧ (cutEnds front back items).2.2.length = back := by
  have hle : front + back ≤ items.length := by
    simp only [takesLength, Bool.or_eq_true, Bool.and_eq_true, decide_eq_true_eq] at h
    omega
  rw [cutEnds_eq]
  simp only [List.length_take, List.length_drop]
  omega

theorem length_cutChars {front back : Nat} {isOpen : Bool} {s : String}
    (h : takesLength front back isOpen s.length = true) :
    (cutChars front back s).1.length = front ∧ (cutChars front back s).2.2.length = back := by
  have hle : front + back ≤ s.toList.length := by
    simp only [takesLength, Bool.or_eq_true, Bool.and_eq_true, decide_eq_true_eq] at h
    rw [String.length_toList]
    omega
  simp only [cutChars, String.toList_copy_take, String.toList_copy_takeEnd, List.length_take,
    List.length_drop]
  omega

theorem mem_binders_of_mem_commonBinders {name : String} {pattern : Pattern} :
    ∀ {alternatives : List Pattern}, name ∈ commonBinders alternatives → pattern ∈ alternatives →
      name ∈ pattern.binders
  | [_], hname, hmem => by
    obtain rfl := List.mem_singleton.1 hmem
    exact hname
  | first :: next :: rest, hname, hmem => by
    rw [commonBinders, List.mem_filter, List.contains_iff_mem] at hname
    · rcases List.mem_cons.1 hmem with rfl | hmem
      · exact hname.1
      · exact mem_binders_of_mem_commonBinders hname.2 hmem
    · nofun

theorem mem_commonBinders_tail {name : String} {pattern : Pattern} :
    ∀ {patterns : List Pattern}, name ∈ commonBinders (pattern :: patterns) → patterns ≠ [] →
      name ∈ commonBinders patterns
  | [], _, h => absurd rfl h
  | next :: rest, hname, h => by
    rw [commonBinders, List.mem_filter, List.contains_iff_mem] at hname
    · exact hname.2
    · exact h

open Captures

/-- The front is matched first, then the back, then the run between them. -/
theorem extends_of_ends {first last middle : List String} {captures begun ended extended : Captures}
    (hfirst : Extends first captures begun) (hlast : Extends last begun ended)
    (hmiddle : Extends middle ended extended) :
    Extends (first ++ middle ++ last) captures extended := by
  refine ((hfirst.trans hlast).trans hmiddle).mono fun name hname => ?_
  simp only [List.mem_append] at hname ⊢
  rcases hname with (hname | hname) | hname
  · exact .inl (.inl hname)
  · exact .inr hname
  · exact .inl (.inr hname)

mutual

/-- A match keeps what was bound and binds what the pattern promises. -/
theorem extend?_binds (pattern : Pattern) {term : Term} {captures extended : Captures}
    (h : pattern.extend? decls term captures = some extended) :
    Extends pattern.binders captures extended := by
  match pattern with
  | .any =>
    cases h
    exact .refl captures
  | .bind name => exact extends_of_bind? h
  | .named name inner =>
    obtain ⟨bound, hinner, hbind⟩ := Option.bind_eq_some_iff.1 h
    refine ((extend?_binds inner hinner).trans (extends_of_bind? hbind)).mono fun other hother => ?_
    rw [binders] at hother
    simpa [or_comm] using hother
  | .literal expected =>
    rw [extend?] at h
    split at h <;> cases h
    exact .refl captures
  | .kind k =>
    rw [extend?] at h
    split at h <;> cases h
    exact .refl captures
  | .fits target =>
    rw [extend?] at h
    split at h <;> cases h
    exact .refl captures
  | .alt alternatives => exact extendFirst?_binds alternatives h
  | .seq front rest back =>
    rw [extend?] at h
    split at h
    · rename_i items _
      split at h
      · rename_i htakes
        obtain ⟨hfront, hback⟩ := length_cutEnds htakes
        generalize cutEnds front.length back.length items = cut at h hfront hback
        obtain ⟨first, middle, last⟩ := cut
        obtain ⟨ended, hends, hrest⟩ := Option.bind_eq_some_iff.1 h
        obtain ⟨begun, hfirst, hlast⟩ := Option.bind_eq_some_iff.1 hends
        exact extends_of_ends (extendEach?_binds front hfront hfirst)
          (extendEach?_binds back hback hlast) (extendRest?_binds rest hrest)
      · cases h
    · cases h
  | .chars front rest back =>
    rw [extend?] at h
    split at h
    · rename_i s _
      split at h
      · rename_i htakes
        obtain ⟨hfront, hback⟩ := length_cutChars htakes
        generalize cutChars front.length back.length s = cut at h hfront hback
        obtain ⟨first, middle, last⟩ := cut
        obtain ⟨ended, hends, hrest⟩ := Option.bind_eq_some_iff.1 h
        obtain ⟨begun, hfirst, hlast⟩ := Option.bind_eq_some_iff.1 hends
        exact extends_of_ends
          (extendEach?_binds front ((List.length_map Term.ofChar).trans hfront) hfirst)
          (extendEach?_binds back ((List.length_map Term.ofChar).trans hback) hlast)
          (extendRest?_binds rest hrest)
      · cases h
    · cases h
  | .text segments =>
    rw [extend?] at h
    split at h
    · obtain ⟨runs, hcut, hruns⟩ := Option.bind_eq_some_iff.1 h
      have hnames := Segment.map_fst_of_cut? hcut
      refine (extends_of_foldlM_bind? hruns).mono fun name hname => ?_
      rw [hnames]
      exact hname
    · cases h
  | .composite fields =>
    rw [extend?] at h
    split at h
    · exact extendFields?_binds fields h
    · cases h
  | .apply head args =>
    rw [extend?] at h
    split at h
    · split at h
      · rename_i hargs
        simp only [Bool.and_eq_true, decide_eq_true_eq] at hargs
        exact extendEach?_binds args hargs.2 h
      · cases h
    · cases h
  | .function k receiver params result =>
    rw [extend?] at h
    split at h
    · split at h
      · obtain ⟨ended, hends, hresult⟩ := Option.bind_eq_some_iff.1 h
        obtain ⟨begun, hreceiver, hparams⟩ := Option.bind_eq_some_iff.1 hends
        exact ((extendRest?_binds receiver hreceiver).trans (extend?_binds params hparams)).trans
          (extend?_binds result hresult)
      · cases h
    · cases h
termination_by structural pattern

/-- As many patterns as terms bind what each of them promises. -/
theorem extendEach?_binds (patterns : List Pattern) {terms : List Term}
    {captures extended : Captures} (hlength : terms.length = patterns.length)
    (h : extendEach? decls patterns terms captures = some extended) :
    Extends (bindersAll patterns) captures extended := by
  match patterns, terms with
  | [], _ =>
    cases h
    exact .refl captures
  | pattern :: patterns, term :: terms =>
    obtain ⟨bound, hfirst, hrest⟩ := Option.bind_eq_some_iff.1 h
    exact (extend?_binds pattern hfirst).trans
      (extendEach?_binds patterns (Nat.succ.inj hlength) hrest)
termination_by structural patterns

theorem extendRest?_binds (pattern : Option Pattern) {term : Term} {captures extended : Captures}
    (h : extendRest? decls pattern term captures = some extended) :
    Extends (bindersOption pattern) captures extended := by
  match pattern with
  | none =>
    cases h
    exact .refl captures
  | some pattern => exact extend?_binds pattern h
termination_by structural pattern

/-- Whichever alternative matches, it binds the names that all of them bind. -/
theorem extendFirst?_binds (alternatives : List Pattern) {term : Term}
    {captures extended : Captures}
    (h : extendFirst? decls alternatives term captures = some extended) :
    Extends (commonBinders alternatives) captures extended := by
  match alternatives with
  | [] => cases h
  | pattern :: patterns =>
    rw [extendFirst?] at h
    cases hfirst : pattern.extend? decls term captures with
    | some found =>
      simp only [hfirst, Option.some.injEq] at h
      subst h
      exact (extend?_binds pattern hfirst).mono fun name hname =>
        mem_binders_of_mem_commonBinders hname List.mem_cons_self
    | none =>
      simp only [hfirst] at h
      exact (extendFirst?_binds patterns h).mono fun name hname =>
        mem_commonBinders_tail hname (by rintro rfl; cases h)
termination_by structural alternatives

theorem extendFields?_binds (fields : List (FieldPattern Pattern)) {entries : Composite}
    {captures extended : Captures}
    (h : extendFields? decls fields entries captures = some extended) :
    Extends (bindersFields fields) captures extended := by
  match fields with
  | [] =>
    cases h
    exact .refl captures
  | ⟨key, presence, value⟩ :: fields =>
    rw [extendFields?] at h
    split at h
    · obtain ⟨bound, hvalue, hrest⟩ := Option.bind_eq_some_iff.1 h
      exact (extend?_binds value hvalue).trans (extendFields?_binds fields hrest)
    · cases h
termination_by structural fields

end

/-- A match binds what the pattern promises. -/
theorem contains_of_captures? {pattern : Pattern} {term : Term} {captures : Captures}
    (h : pattern.captures? decls term = some captures) :
    ∀ name ∈ pattern.binders, captures.contains name = true :=
  (extend?_binds pattern h).binds

end Pattern

end Reshape
