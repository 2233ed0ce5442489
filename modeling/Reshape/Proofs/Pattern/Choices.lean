import Reshape.Proofs.Pattern.Gathering

/-!
# What an alternation leaves behind

An alternation stands for the pattern that is left when one of its alternatives is chosen, at every
depth (`Pattern.Chooses`). A match chooses as it goes, and an alternative that fails may do so after it
has bound names, at any depth inside of sequences, fields and other alternations. Nothing of that is
left: what a match binds is exactly what the choice binds, and so what the choice collects
(`Pattern.captures?_chooses`).
-/

namespace Reshape

/-- The same field is asked for in the same way. -/
inductive FieldPattern.Alike {α β : Type} (alike : α → β → Prop) :
    FieldPattern α → FieldPattern β → Prop where
  | intro {value : α} {value' : β} (key : String) (presence : Presence) :
      alike value value' → Alike alike ⟨key, presence, value⟩ ⟨key, presence, value'⟩

namespace Pattern

/-- The second pattern is the first with one of its alternatives in the place of every alternation. -/
inductive Chooses : Pattern → Pattern → Prop where
  | any : Chooses .any .any
  | bind (name : String) : Chooses (.bind name) (.bind name)
  | named {inner inner' : Pattern} (name : String) :
      Chooses inner inner' → Chooses (.named name inner) (.named name inner')
  | literal (term : Term) : Chooses (.literal term) (.literal term)
  | kind (kind : Term.Kind) : Chooses (.kind kind) (.kind kind)
  | fits (target : Term) : Chooses (.fits target) (.fits target)
  | alt {alternatives : List Pattern} {alternative chosen : Pattern} :
      alternative ∈ alternatives → Chooses alternative chosen → Chooses (.alt alternatives) chosen
  | seq {front front' back back' : List Pattern} {rest rest' : Option Pattern} :
      List.Forall₂ Chooses front front' → Option.Rel Chooses rest rest' →
      List.Forall₂ Chooses back back' → Chooses (.seq front rest back) (.seq front' rest' back')
  | chars {front front' back back' : List Pattern} {rest rest' : Option Pattern} :
      List.Forall₂ Chooses front front' → Option.Rel Chooses rest rest' →
      List.Forall₂ Chooses back back' → Chooses (.chars front rest back) (.chars front' rest' back')
  | text (segments : List Segment) : Chooses (.text segments) (.text segments)
  | composite {fields fields' : List (FieldPattern Pattern)} :
      List.Forall₂ (FieldPattern.Alike Chooses) fields fields' →
      Chooses (.composite fields) (.composite fields')
  | apply {args args' : List Pattern} (head : String) :
      List.Forall₂ Chooses args args' → Chooses (.apply head args) (.apply head args')
  | function {receiver receiver' : Option Pattern} {params params' result result' : Pattern}
      (kind : SignatureKind) :
      Option.Rel Chooses receiver receiver' → Chooses params params' → Chooses result result' →
      Chooses (.function kind receiver params result) (.function kind receiver' params' result')

/-! ## A choice has no alternations -/

mutual

theorem Chooses.altFree {pattern chosen : Pattern} (h : Chooses pattern chosen) :
    chosen.altFree = true := by
  match h with
  | .any => rfl
  | .bind _ => rfl
  | .literal _ => rfl
  | .kind _ => rfl
  | .fits _ => rfl
  | .text _ => rfl
  | .alt _ hchosen => exact hchosen.altFree
  | .named _ hinner => exact hinner.altFree
  | .seq hfront hrest hback =>
    rw [Pattern.altFree, altFreeAll_of_chooses hfront, altFreeOption_of_chooses hrest,
      altFreeAll_of_chooses hback]
    rfl
  | .chars hfront hrest hback =>
    rw [Pattern.altFree, altFreeAll_of_chooses hfront, altFreeOption_of_chooses hrest,
      altFreeAll_of_chooses hback]
    rfl
  | .composite hfields => exact altFreeFields_of_chooses hfields
  | .apply _ hargs => exact altFreeAll_of_chooses hargs
  | .function _ hreceiver hparams hresult =>
    rw [Pattern.altFree, altFreeOption_of_chooses hreceiver, hparams.altFree, hresult.altFree]
    rfl

theorem altFreeAll_of_chooses {patterns chosen : List Pattern}
    (h : List.Forall₂ Chooses patterns chosen) : altFreeAll chosen = true := by
  match h with
  | .nil => rfl
  | .cons hfirst hrest =>
    rw [altFreeAll, hfirst.altFree, altFreeAll_of_chooses hrest]
    rfl

theorem altFreeOption_of_chooses {pattern chosen : Option Pattern}
    (h : Option.Rel Chooses pattern chosen) : altFreeOption chosen = true := by
  match h with
  | .none => rfl
  | .some hinner => exact hinner.altFree

theorem altFreeFields_of_chooses {fields chosen : List (FieldPattern Pattern)}
    (h : List.Forall₂ (FieldPattern.Alike Chooses) fields chosen) : altFreeFields chosen = true := by
  match h with
  | .nil => rfl
  | .cons (.intro _ _ hvalue) hrest =>
    rw [altFreeFields, hvalue.altFree, altFreeFields_of_chooses hrest]
    rfl

end

/-! ## Both ends and the run between -/

section

variable {decls : Declarations} {front front' back back' : List Pattern} {rest rest' : Option Pattern}
  {run : Term} {captures extended : Captures}

/-- A choice takes as many elements. -/
theorem TakesLength.of_chooses {n : Nat} (h : TakesLength front rest back n)
    (hfront : List.Forall₂ Chooses front front') (hrest : Option.Rel Chooses rest rest')
    (hback : List.Forall₂ Chooses back back') : TakesLength front' rest' back' n := by
  rw [TakesLength, ← hfront.length_eq, ← hback.length_eq]
  refine ⟨h.1, fun hnone => h.2 ?_⟩
  subst hnone
  cases hrest
  rfl

theorem extendEnds?_chooses {items : List Term} (htakes : TakesLength front rest back items.length)
    (h : extendEnds? decls front rest back items run captures = some extended)
    (hfront : ∀ {terms captures extended}, terms.length = front.length →
      extendEach? decls front terms captures = some extended →
      ∃ chosen, List.Forall₂ Chooses front chosen ∧
        extendEach? decls chosen terms captures = some extended)
    (hback : ∀ {terms captures extended}, terms.length = back.length →
      extendEach? decls back terms captures = some extended →
      ∃ chosen, List.Forall₂ Chooses back chosen ∧
        extendEach? decls chosen terms captures = some extended)
    (hrest : ∀ {captures extended}, extendRest? decls rest run captures = some extended →
      ∃ chosen, Option.Rel Chooses rest chosen ∧
        extendRest? decls chosen run captures = some extended) :
    ∃ front' rest' back', List.Forall₂ Chooses front front' ∧ Option.Rel Chooses rest rest' ∧
      List.Forall₂ Chooses back back' ∧
      extendEnds? decls front' rest' back' items run captures = some extended := by
  have hle := htakes.1
  obtain ⟨ended, hends, hrun⟩ := Option.bind_eq_some_iff.1 h
  obtain ⟨begun, hfirst, hlast⟩ := Option.bind_eq_some_iff.1 hends
  obtain ⟨front', hchooses, hfirst⟩ := hfront (by rw [List.length_take]; omega) hfirst
  obtain ⟨back', hchooses', hlast⟩ := hback (by simp only [List.length_drop]; omega) hlast
  obtain ⟨rest', hchooses'', hrun⟩ := hrest hrun
  refine ⟨front', rest', back', hchooses, hchooses'', hchooses', ?_⟩
  rw [extendEnds?, ← hchooses.length_eq, ← hchooses'.length_eq, hfirst, Option.bind_some, hlast,
    Option.bind_some, hrun]

end

/-! ## Matching chooses -/

variable {decls : Declarations}

mutual

/-- A match from some captures is the match of a choice from the same captures, with the same result. -/
theorem extend?_chooses (pattern : Pattern) {term : Term} {captures extended : Captures}
    (h : pattern.extend? decls term captures = some extended) :
    ∃ chosen, Chooses pattern chosen ∧ chosen.extend? decls term captures = some extended := by
  match pattern with
  | .any => exact ⟨_, .any, h⟩
  | .bind name => exact ⟨_, .bind name, h⟩
  | .literal expected => exact ⟨_, .literal expected, h⟩
  | .kind k => exact ⟨_, .kind k, h⟩
  | .fits target => exact ⟨_, .fits target, h⟩
  | .text segments => exact ⟨_, .text segments, h⟩
  | .named name inner =>
    obtain ⟨bound, hinner, hbind⟩ := Option.bind_eq_some_iff.1 h
    obtain ⟨chosen, hchooses, hinner⟩ := extend?_chooses inner hinner
    refine ⟨_, .named name hchooses, ?_⟩
    rw [extend?, hinner]
    exact hbind
  | .alt alternatives =>
    obtain ⟨alternative, hmem, chosen, hchooses, hchosen⟩ := extendFirst?_chooses alternatives h
    exact ⟨chosen, .alt hmem hchooses, hchosen⟩
  | .seq front rest back =>
    obtain ⟨items, hitems, htakes⟩ := exists_of_extend?_seq h
    rw [extend?_seq hitems htakes] at h
    obtain ⟨front', rest', back', hfront, hrest, hback, hends⟩ := extendEnds?_chooses htakes h
      (extendEach?_chooses front) (extendEach?_chooses back) (extendRest?_chooses rest)
    refine ⟨_, .seq hfront hrest hback, ?_⟩
    rw [extend?_seq hitems (htakes.of_chooses hfront hrest hback), ← hfront.length_eq,
      ← hback.length_eq]
    exact hends
  | .chars front rest back =>
    obtain ⟨s, hs, htakes⟩ := exists_of_extend?_chars h
    have hlength : TakesLength front rest back (s.toList.map Term.ofChar).length := by
      rwa [List.length_map, String.length_toList]
    rw [extend?_chars hs htakes] at h
    obtain ⟨front', rest', back', hfront, hrest, hback, hends⟩ := extendEnds?_chooses hlength h
      (extendEach?_chooses front) (extendEach?_chooses back) (extendRest?_chooses rest)
    refine ⟨_, .chars hfront hrest hback, ?_⟩
    rw [extend?_chars hs (htakes.of_chooses hfront hrest hback), ← hfront.length_eq,
      ← hback.length_eq]
    exact hends
  | .composite fields =>
    rw [extend?] at h
    split at h
    · rename_i entries hentries
      obtain ⟨chosen, hchooses, hchosen⟩ := extendFields?_chooses fields h
      refine ⟨_, .composite hchooses, ?_⟩
      rw [extend?, hentries]
      exact hchosen
    · cases h
  | .apply head args =>
    rw [extend?] at h
    split at h
    · rename_i actual items hitems
      split at h
      · rename_i hsame
        have hlength := (Bool.and_eq_true_iff.1 hsame).2
        obtain ⟨chosen, hchooses, hchosen⟩ :=
          extendEach?_chooses args (of_decide_eq_true hlength) h
        refine ⟨_, .apply head hchooses, ?_⟩
        rw [extend?, hitems]
        dsimp only
        rw [← hchooses.length_eq, if_pos hsame]
        exact hchosen
      · cases h
    · cases h
  | .function k receiver params result =>
    rw [extend?] at h
    split at h
    · rename_i actual given items value hshape
      split at h
      · rename_i hkind
        obtain ⟨ended, hends, hvalue⟩ := Option.bind_eq_some_iff.1 h
        obtain ⟨begun, hgiven, hitems⟩ := Option.bind_eq_some_iff.1 hends
        obtain ⟨receiver', hreceiver, hgiven⟩ := extendRest?_chooses receiver hgiven
        obtain ⟨params', hparams, hitems⟩ := extend?_chooses params hitems
        obtain ⟨result', hresult, hvalue⟩ := extend?_chooses result hvalue
        refine ⟨_, .function k hreceiver hparams hresult, ?_⟩
        rw [extend?, hshape]
        dsimp only
        rw [if_pos hkind, hgiven, Option.bind_some, hitems, Option.bind_some, hvalue]
      · cases h
    · cases h
termination_by structural pattern

theorem extendEach?_chooses (patterns : List Pattern) {terms : List Term}
    {captures extended : Captures} (hlength : terms.length = patterns.length)
    (h : extendEach? decls patterns terms captures = some extended) :
    ∃ chosen, List.Forall₂ Chooses patterns chosen ∧
      extendEach? decls chosen terms captures = some extended := by
  match patterns, terms with
  | [], _ => exact ⟨[], .nil, h⟩
  | pattern :: patterns, term :: terms =>
    obtain ⟨bound, hfirst, hrest⟩ := Option.bind_eq_some_iff.1 h
    obtain ⟨first, hchooses, hfirst⟩ := extend?_chooses pattern hfirst
    obtain ⟨others, hchooses', hrest⟩ :=
      extendEach?_chooses patterns (Nat.succ.inj hlength) hrest
    refine ⟨_, .cons hchooses hchooses', ?_⟩
    rw [extendEach?, hfirst]
    exact hrest
termination_by structural patterns

theorem extendRest?_chooses (rest : Option Pattern) {term : Term} {captures extended : Captures}
    (h : extendRest? decls rest term captures = some extended) :
    ∃ chosen, Option.Rel Chooses rest chosen ∧
      extendRest? decls chosen term captures = some extended := by
  match rest with
  | none => exact ⟨none, .none, h⟩
  | some pattern =>
    obtain ⟨chosen, hchooses, hchosen⟩ := extend?_chooses pattern h
    exact ⟨_, .some hchooses, hchosen⟩
termination_by structural rest

/-- The alternatives that fail are passed over with the captures as they were before. -/
theorem extendFirst?_chooses (alternatives : List Pattern) {term : Term}
    {captures extended : Captures}
    (h : extendFirst? decls alternatives term captures = some extended) :
    ∃ alternative ∈ alternatives, ∃ chosen, Chooses alternative chosen ∧
      chosen.extend? decls term captures = some extended := by
  match alternatives with
  | [] => cases h
  | pattern :: patterns =>
    rw [extendFirst?] at h
    split at h
    · rename_i found hfound
      cases h
      obtain ⟨chosen, hchooses, hchosen⟩ := extend?_chooses pattern hfound
      exact ⟨pattern, List.mem_cons_self, chosen, hchooses, hchosen⟩
    · obtain ⟨alternative, hmem, hchosen⟩ := extendFirst?_chooses patterns h
      exact ⟨alternative, List.mem_cons_of_mem _ hmem, hchosen⟩
termination_by structural alternatives

theorem extendFields?_chooses (fields : List (FieldPattern Pattern)) {entries : Composite}
    {captures extended : Captures}
    (h : extendFields? decls fields entries captures = some extended) :
    ∃ chosen, List.Forall₂ (FieldPattern.Alike Chooses) fields chosen ∧
      extendFields? decls chosen entries captures = some extended := by
  match fields with
  | [] => exact ⟨[], .nil, h⟩
  | ⟨key, presence, value⟩ :: fields =>
    rw [extendFields?] at h
    split at h
    · rename_i term hselect
      obtain ⟨bound, hvalue, hrest⟩ := Option.bind_eq_some_iff.1 h
      obtain ⟨chosen, hchooses, hvalue⟩ := extend?_chooses value hvalue
      obtain ⟨others, hchooses', hrest⟩ := extendFields?_chooses fields hrest
      refine ⟨_, .cons (.intro key presence hchooses) hchooses', ?_⟩
      rw [extendFields?, hselect]
      dsimp only
      rw [hvalue]
      exact hrest
    · cases h
termination_by structural fields

end

/-- What a match binds was bound before or is collected. -/
theorem collects_of_extend? {pattern : Pattern} {term bound : Term} {captures extended : Captures}
    {name : String} (halt : pattern.altFree = true)
    (h : pattern.extend? decls term captures = some extended) (hget : extended.get? name = some bound) :
    captures.get? name = some bound ∨ Collects decls pattern term name bound := by
  have hgathers : Captures.Gathers (SuitsThroughout decls pattern term) _ _ :=
    extend?_gathers pattern halt term
  by_cases hsuits : SuitsThroughout decls pattern term
  · obtain ⟨pairs, hpairs, heq⟩ := hgathers.binds hsuits
    have hbind : Captures.bindAll pairs captures = some extended := (heq captures).symm.trans h
    exact (Captures.get?_or_mem_of_bindAll hbind hget).imp_right (hpairs name bound).1
  · cases h.symm.trans (hgathers.fails hsuits captures)

/-- Nothing is bound that is not collected. -/
theorem collects_of_captures? {pattern : Pattern} {term bound : Term} {captures : Captures}
    {name : String} (halt : pattern.altFree = true)
    (h : pattern.captures? decls term = some captures) (hget : captures.get? name = some bound) :
    Collects decls pattern term name bound :=
  (collects_of_extend? halt h hget).resolve_left nofun

/-- What is passed on from terms holds of all that a match binds if it holds of the term. -/
theorem inherits_of_captures? {P : Term → Prop} (hP : decls.PassesOn P) {pattern : Pattern}
    {term bound : Term} {captures : Captures} {name : String}
    (h : pattern.captures? decls term = some captures) (hget : captures.get? name = some bound)
    (hterm : P term) : P bound := by
  obtain ⟨chosen, hchooses, hchosen⟩ := extend?_chooses pattern h
  exact (collects_of_captures? hchooses.altFree hchosen hget).inherits hP hterm

/-- A match binds what one choice of alternatives binds, exactly, and nothing else: each name is bound
to a term that it is collected for in the match of that choice. -/
theorem captures?_chooses {pattern : Pattern} {term : Term} {captures : Captures}
    (h : pattern.captures? decls term = some captures) :
    ∃ chosen, Chooses pattern chosen ∧ chosen.altFree = true ∧
      chosen.captures? decls term = some captures ∧
      ∀ name bound, captures.get? name = some bound → Collects decls chosen term name bound := by
  obtain ⟨chosen, hchooses, hchosen⟩ := extend?_chooses pattern h
  exact ⟨chosen, hchooses, hchooses.altFree, hchosen,
    fun _ _ hget => collects_of_captures? hchooses.altFree hchosen hget⟩

/-- The first alternative fails at its last element, after it has bound `a` and `c`, and before that
the first alternative inside of it fails after it has bound `b`. -/
def backsOut : Pattern :=
  .alt [tuple [.bind "a", .alt [tuple [.bind "b", .kind .text], .bind "c"], .kind .text],
    tuple [.any, .any, .bind "d"]]

theorem captures?_backsOut :
    ∃ chosen captures, Chooses backsOut chosen ∧ chosen.altFree = true ∧
      chosen.captures? ∅ (.seq [.int 1, .seq [.int 2, .int 3], .int 4]) = some captures ∧
      (captures.get? "d").isSome = true ∧
      ∀ name bound, captures.get? name = some bound →
        Collects ∅ chosen (.seq [.int 1, .seq [.int 2, .int 3], .int 4]) name bound := by
  have hmatches : ((backsOut.captures? ∅ (.seq [.int 1, .seq [.int 2, .int 3], .int 4])).bind
      (·.get? "d")).isSome = true := by decide +kernel
  obtain ⟨bound, hbound⟩ := Option.isSome_iff_exists.1 hmatches
  obtain ⟨captures, hcaptures, hget⟩ := Option.bind_eq_some_iff.1 hbound
  obtain ⟨chosen, hchooses, halt, hchosen, hcollects⟩ := captures?_chooses hcaptures
  exact ⟨chosen, captures, hchooses, halt, hchosen, Option.isSome_iff_exists.2 ⟨bound, hget⟩,
    hcollects⟩

end Pattern

end Reshape
