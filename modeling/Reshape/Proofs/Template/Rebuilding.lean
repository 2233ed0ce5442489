import Reshape.Instantiation
import Reshape.Proofs.Pattern.Cut
import Reshape.Proofs.Pattern.Equality

/-!
# Rewriting undoes matching

A pattern that takes a term apart without a choice and without dropping anything has a template that
puts the term together again (`Pattern.template?`): names for names, elements for elements, a splice
for the run between them, and pieces of text for segments and characters. From the captures of a
match it builds a term that is equal to the one that was matched
(`Pattern.instantiate_of_captures?`).

Equal is all that can be said: a name that stands twice is bound to the first of two equal terms, and
a literal is built as it is written. Texts are equal only if they are identical, so they come back as
they were.
-/

namespace Reshape

/-! ## Captures that last -/

namespace Captures

variable {P Q : Captures → Prop} {captures bound extended : Captures}

/-- What is bound is kept, and `P` holds of all captures with distinct keys that keep the extended
ones. -/
structure Secures (P : Captures → Prop) (captures extended : Captures) : Prop where
  kept : captures.KeptIn extended
  holds : ∀ final : Captures, final.WellKeyed → extended.KeptIn final → P final

theorem Secures.mono (h : Secures P captures extended) (hPQ : ∀ final, P final → Q final) :
    Secures Q captures extended :=
  ⟨h.kept, fun final hfinal hkept => hPQ final (h.holds final hfinal hkept)⟩

theorem Secures.and (h : Secures P captures bound) (h' : Secures Q bound extended) :
    Secures (fun final => P final ∧ Q final) captures extended :=
  ⟨h.kept.trans h'.kept, fun final hfinal hkept =>
    ⟨h.holds final hfinal (h'.kept.trans hkept), h'.holds final hfinal hkept⟩⟩

/-- A name is bound to the term or to one that is equal. -/
theorem secures_of_bind? {name : String} {term : Term} (hterm : term.WellKeyed)
    (h : captures.bind? name term = some extended) :
    Secures (fun final => ∃ stored, final.get? name = some stored ∧ stored.Same term) captures
      extended := by
  refine ⟨fun _ _ => get?_of_bind? h, fun final hfinal hkept => ?_⟩
  obtain ⟨stored, hstored, hequal⟩ := exists_of_bind? h
  have hget := hkept name stored hstored
  rcases hequal with rfl | hbeq
  · exact ⟨stored, hget, .refl hterm⟩
  · exact ⟨stored, hget, .of_beq (hfinal name stored hget) hterm hbeq⟩

end Captures

namespace Term

variable {x : Term} {ys : List Term} {s : String}

/-- What is equal to a text is that text. -/
theorem Same.eq_text (h : x.Same (.text s)) : x = .text s := by
  cases h.shape
  rfl

theorem Same.exists_seq (h : x.Same (.seq ys)) : ∃ xs, x = .seq xs ∧ List.Forall₂ Same xs ys := by
  cases h.shape with
  | seq hitems => exact ⟨_, rfl, hitems⟩

theorem same_seq {xs : List Term} (h : List.Forall₂ Same xs ys) : (Term.seq xs).Same (.seq ys) := by
  refine .of_shape partByPart_normal (.seq h) fun hkind => ?_
  cases hkind

end Term

open Captures

theorem secures_of_foldlM_bind? {runs : CutRuns} {captures extended : Captures}
    (h : runs.foldlM (fun (bound : Captures) (name, run) => bound.bind? name (.text run)) captures =
      some extended) :
    Secures (fun final => ∀ run ∈ runs, final.get? run.1 = some (.text run.2)) captures extended := by
  induction runs generalizing captures with
  | nil =>
    cases h
    exact ⟨.refl _, fun _ _ _ => List.forall_mem_nil _⟩
  | cons run runs ih =>
    obtain ⟨bound, hbind, hrest⟩ := Option.bind_eq_some_iff.1 h
    refine ((secures_of_bind? (Term.wellKeyed_text _) hbind).and (ih hrest)).mono ?_
    rintro final ⟨⟨stored, hget, hsame⟩, hruns⟩
    rw [hsame.eq_text] at hget
    exact List.forall_mem_cons.2 ⟨hget, hruns⟩

/-! ## The template of a pattern -/

/-- The piece of text that a segment takes off, if it is captured or fixed. -/
def Segment.piece? : Segment → Option (TextPiece Template)
  | .run (some name) => some (.insert (.capture name))
  | .literal [s] => some (.literal s)
  | _ => none

namespace Pattern

mutual

/-- The template that puts together what the pattern takes apart, if the pattern leaves nothing out
and has no alternatives. -/
def template? : Pattern → Option Template
  | .bind name => some (.capture name)
  | .literal term => some (.literal term)
  | .seq front rest back => do
    let first ← templates? front
    let between ← templateOption? rest
    let last ← templates? back
    some (.seq (first.map .element ++ (between.toList.map .splice ++ last.map .element)))
  | .chars front rest back => do
    let first ← templates? front
    let between ← templateOption? rest
    let last ← templates? back
    some (.text (first.map .insert ++ (between.toList.map .insert ++ last.map .insert)))
  | .text segments => (segments.mapM Segment.piece?).map .text
  | .apply head args => (templates? args).map (.apply head)
  | .any | .named _ _ | .kind _ | .fits _ | .alt _ | .composite _ | .function _ _ _ _ => none
termination_by structural pattern => pattern

def templates? : List Pattern → Option (List Template)
  | [] => some []
  | pattern :: rest => do
    let first ← template? pattern
    let others ← templates? rest
    some (first :: others)
termination_by structural patterns => patterns

def templateOption? : Option Pattern → Option (Option Template)
  | none => some none
  | some pattern => (template? pattern).map some
termination_by structural pattern => pattern

end

end Pattern

/-! ## Building from what was taken apart -/

namespace Template

/-- From the captures the template builds a term that is equal to this one. -/
def Rebuilds (captures : Captures) (template : Template) (term : Term) : Prop :=
  ∃ rebuilt, template.build ∅ captures = .done rebuilt ∧ rebuilt.Same term

variable {captures : Captures} {template : Template} {templates : List Template}
  {between : Option Template} {terms xs : List Term} {s text : String}

theorem build_capture {name : String} {term : Term} (h : captures.get? name = some term) :
    (capture name).build ∅ captures = .done term := by
  rw [build, Captures.lookup, h]
  rfl

/-- As many elements are built as there are templates, in front of the other items. -/
theorem buildItems_elements {more : List (SeqItem Template)}
    (h : List.Forall₂ (Rebuilds captures) templates terms)
    (hmore : buildItems ∅ more captures = .done xs) :
    ∃ ys, buildItems ∅ (templates.map .element ++ more) captures = .done (ys ++ xs) ∧
      List.Forall₂ Term.Same ys terms := by
  induction h with
  | nil => exact ⟨[], hmore, .nil⟩
  | cons hfirst _ ih =>
    obtain ⟨y, hbuild, hsame⟩ := hfirst
    obtain ⟨ys, hothers, hall⟩ := ih
    refine ⟨y :: ys, ?_, .cons hsame hall⟩
    rw [List.map_cons, List.cons_append, buildItems, hbuild, Plan.done_bind, hothers]
    rfl

/-- The run between is spliced in, and without a template for it there is none. -/
theorem buildItems_splice {more : List (SeqItem Template)}
    (h : ∀ template ∈ between, template.Rebuilds captures (.seq terms))
    (hnone : between = none → terms = []) (hmore : buildItems ∅ more captures = .done xs) :
    ∃ ys, buildItems ∅ (between.toList.map .splice ++ more) captures = .done (ys ++ xs) ∧
      List.Forall₂ Term.Same ys terms := by
  cases between with
  | none =>
    rw [hnone rfl]
    exact ⟨[], hmore, .nil⟩
  | some template =>
    obtain ⟨rebuilt, hbuild, hsame⟩ := h template rfl
    obtain ⟨ys, rfl, hall⟩ := hsame.exists_seq
    refine ⟨ys, ?_, hall⟩
    rw [Option.toList_some, List.map_singleton, List.singleton_append, buildItems, hbuild,
      Plan.done_bind, Declarations.resolve_empty, Term.needSeq, Plan.lift, Plan.done_bind, hmore,
      Plan.done_bind, joinItems_eq]
    rfl

theorem buildPieces_insert {more : List (TextPiece Template)}
    (h : template.Rebuilds captures (.text s)) (hmore : buildPieces ∅ more captures = .done text) :
    buildPieces ∅ (.insert template :: more) captures = .done (s ++ text) := by
  obtain ⟨rebuilt, hbuild, hsame⟩ := h
  rw [hsame.eq_text] at hbuild
  rw [buildPieces, hbuild, Plan.done_bind, Declarations.resolve_empty, Term.needFragment, Plan.lift,
    Plan.done_bind, hmore]
  rfl

theorem buildPieces_chars {chars : List Char} {more : List (TextPiece Template)}
    (h : List.Forall₂ (Rebuilds captures) templates (chars.map .ofChar))
    (hmore : buildPieces ∅ more captures = .done text) :
    buildPieces ∅ (templates.map .insert ++ more) captures = .done (.ofList chars ++ text) := by
  induction chars generalizing templates with
  | nil =>
    cases h
    rw [String.ofList_nil, String.empty_append]
    exact hmore
  | cons c chars ih =>
    obtain _ | ⟨hfirst, hothers⟩ := h
    have hjoin : String.singleton c ++ String.ofList chars = String.ofList (c :: chars) := by simp
    rw [List.map_cons, List.cons_append, buildPieces_insert hfirst (ih hothers), ← String.append_assoc,
      hjoin]

theorem buildPieces_between {more : List (TextPiece Template)}
    (h : ∀ template ∈ between, template.Rebuilds captures (.text s))
    (hnone : between = none → s = "") (hmore : buildPieces ∅ more captures = .done text) :
    buildPieces ∅ (between.toList.map .insert ++ more) captures = .done (s ++ text) := by
  cases between with
  | none =>
    rw [hnone rfl, String.empty_append]
    exact hmore
  | some template => exact buildPieces_insert (h template rfl) hmore

theorem buildAll_rebuilds (h : List.Forall₂ (Rebuilds captures) templates terms) :
    ∃ ys, buildAll ∅ templates captures = .done ys ∧ List.Forall₂ Term.Same ys terms := by
  induction h with
  | nil => exact ⟨[], rfl, .nil⟩
  | cons hfirst _ ih =>
    obtain ⟨y, hbuild, hsame⟩ := hfirst
    obtain ⟨ys, hothers, hall⟩ := ih
    refine ⟨y :: ys, ?_, .cons hsame hall⟩
    rw [buildAll, hbuild, Plan.done_bind, hothers]
    rfl

/-- Elements in front, a run between and elements behind build the sequence of them all. -/
theorem rebuilds_seq {first last : List Template} {starting middle ending : List Term}
    (hfirst : List.Forall₂ (Rebuilds captures) first starting)
    (hbetween : ∀ template ∈ between, template.Rebuilds captures (.seq middle))
    (hclosed : between = none → middle = [])
    (hlast : List.Forall₂ (Rebuilds captures) last ending) :
    (Template.seq (first.map .element ++ (between.toList.map .splice ++ last.map .element))).Rebuilds
      captures (.seq (starting ++ (middle ++ ending))) := by
  have hnil : buildItems ∅ [] captures = .done [] := rfl
  obtain ⟨zs, hzs, hsameLast⟩ := buildItems_elements hlast hnil
  obtain ⟨ys, hys, hsameMiddle⟩ := buildItems_splice hbetween hclosed hzs
  obtain ⟨xs, hxs, hsameFirst⟩ := buildItems_elements hfirst hys
  rw [List.append_nil, List.append_nil] at hxs
  refine ⟨.seq (xs ++ (ys ++ zs)), ?_, Term.same_seq ?_⟩
  · rw [build, hxs]
    rfl
  · exact List.rel_append hsameFirst (List.rel_append hsameMiddle hsameLast)

/-- Characters in front, a run between and characters behind build the text of them all. -/
theorem rebuilds_chars {first last : List Template} {starting ending : List Char} {middle : String}
    (hfirst : List.Forall₂ (Rebuilds captures) first (starting.map .ofChar))
    (hbetween : ∀ template ∈ between, template.Rebuilds captures (.text middle))
    (hclosed : between = none → middle = "")
    (hlast : List.Forall₂ (Rebuilds captures) last (ending.map .ofChar)) :
    (Template.text (first.map .insert ++ (between.toList.map .insert ++ last.map .insert))).Rebuilds
      captures (.text (.ofList starting ++ (middle ++ .ofList ending))) := by
  have hnil : buildPieces ∅ [] captures = .done "" := rfl
  have hzs := buildPieces_chars hlast hnil
  have hxs := buildPieces_chars hfirst (buildPieces_between hbetween hclosed hzs)
  rw [List.append_nil, String.append_empty] at hxs
  refine ⟨_, ?_, .refl (Term.wellKeyed_text _)⟩
  rw [build, hxs]
  rfl

theorem buildPieces_run {name s : String} {more : List (TextPiece Template)}
    (h : captures.get? name = some (.text s)) (hmore : buildPieces ∅ more captures = .done text) :
    buildPieces ∅ (.insert (.capture name) :: more) captures = .done (s ++ text) :=
  buildPieces_insert ⟨.text s, build_capture h, .refl (Term.wellKeyed_text s)⟩ hmore

theorem buildPieces_literal {s : String} {more : List (TextPiece Template)}
    (hmore : buildPieces ∅ more captures = .done text) :
    buildPieces ∅ (.literal s :: more) captures = .done (s ++ text) := by
  rw [buildPieces, hmore]
  rfl

end Template

namespace Segment

open Template

variable {captures : Captures}

theorem piece?_run {name : Option String} {piece : TextPiece Template}
    (h : piece? (.run name) = some piece) :
    ∃ n, name = some n ∧ piece = .insert (.capture n) := by
  cases name with
  | none => cases h
  | some n =>
    cases h
    exact ⟨n, rfl, rfl⟩

theorem piece?_literal {alternatives : List String} {piece : TextPiece Template}
    (h : piece? (.literal alternatives) = some piece) :
    ∃ s, alternatives = [s] ∧ piece = .literal s := by
  obtain _ | ⟨s, _ | ⟨_, _⟩⟩ := alternatives
  · cases h
  · cases h
    exact ⟨s, rfl, rfl⟩
  · cases h

theorem mapM_piece?_cons {segment : Segment} {segments : List Segment}
    {pieces : List (TextPiece Template)} (h : (segment :: segments).mapM piece? = some pieces) :
    ∃ piece others, piece? segment = some piece ∧ segments.mapM piece? = some others ∧
      pieces = piece :: others := by
  rw [List.mapM_cons] at h
  obtain ⟨piece, hpiece, hrest⟩ := Option.bind_eq_some_iff.1 h
  obtain ⟨others, hothers, hsome⟩ := Option.bind_eq_some_iff.1 hrest
  exact ⟨piece, others, hpiece, hothers, (Option.some.inj hsome).symm⟩

/-- The pieces of the segments give the text that was cut, if its runs are bound. -/
theorem buildPieces_of_cut? : ∀ {segments : List Segment} {s : String} {runs : CutRuns}
    {pieces : List (TextPiece Template)}, segments.mapM piece? = some pieces →
    cut? segments s = some runs → (∀ run ∈ runs, captures.get? run.1 = some (.text run.2)) →
    buildPieces ∅ pieces captures = .done s
  | [], s, runs, pieces, hpieces, hcut, _ => by
    cases hpieces
    rw [cut?] at hcut
    split at hcut
    · rename_i hempty
      rw [String.isEmpty_iff.1 hempty]
      rfl
    · cases hcut
  | .literal alternatives :: segments, s, runs, pieces, hpieces, hcut, hruns => by
    obtain ⟨piece, others, hpiece, hothers, rfl⟩ := mapM_piece?_cons hpieces
    obtain ⟨literal, rfl, rfl⟩ := piece?_literal hpiece
    rw [cut?, List.findSome?_singleton] at hcut
    cases hafter : Text.afterStart? literal s with
    | none =>
      rw [hafter] at hcut
      cases hcut
    | some after =>
      rw [hafter] at hcut
      rw [← Text.afterStart?_eq_some_iff.1 hafter]
      exact buildPieces_literal (buildPieces_of_cut? hothers hcut hruns)
  | [.run name], s, runs, pieces, hpieces, hcut, hruns => by
    obtain ⟨piece, others, hpiece, hothers, rfl⟩ := mapM_piece?_cons hpieces
    obtain ⟨name, rfl, rfl⟩ := piece?_run hpiece
    rw [List.mapM_nil] at hothers
    cases hothers
    rw [cut?] at hcut
    cases hcut
    have hnil : buildPieces ∅ [] captures = .done "" := rfl
    have hlast := buildPieces_run (hruns (name, s) List.mem_cons_self) hnil
    rwa [String.append_empty] at hlast
  | .run name :: .run next :: segments, s, runs, pieces, hpieces, hcut, hruns => by
    obtain ⟨piece, others, hpiece, hothers, rfl⟩ := mapM_piece?_cons hpieces
    obtain ⟨name, rfl, rfl⟩ := piece?_run hpiece
    rw [cut?] at hcut
    split at hcut
    · cases hcut
    · obtain ⟨found, hfound, rfl⟩ := Option.map_eq_some_iff.1 hcut
      rw [record, List.forall_mem_cons] at hruns
      rw [← take_append_drop s 1]
      exact buildPieces_run hruns.1 (buildPieces_of_cut? hothers hfound hruns.2)
  | .run name :: .literal alternatives :: segments, s, runs, pieces, hpieces, hcut, hruns => by
    obtain ⟨piece, others, hpiece, hothers, rfl⟩ := mapM_piece?_cons hpieces
    obtain ⟨name, rfl, rfl⟩ := piece?_run hpiece
    obtain ⟨ending, rest, hending, hrest, rfl⟩ := mapM_piece?_cons hothers
    obtain ⟨literal, rfl, rfl⟩ := piece?_literal hending
    rw [cut?, List.findSome?_singleton] at hcut
    cases hstop : stopAt? segments.isEmpty literal s with
    | none =>
      rw [hstop] at hcut
      cases hcut
    | some parts =>
      obtain ⟨piece, after⟩ := parts
      rw [hstop] at hcut
      obtain ⟨found, hfound, rfl⟩ := Option.map_eq_some_iff.1 hcut
      rw [record, List.forall_mem_cons] at hruns
      rw [← stopAt?_join hstop]
      exact buildPieces_run hruns.1 (buildPieces_literal (buildPieces_of_cut? hrest hfound hruns.2))

end Segment

/-! ## Patterns -/

namespace Pattern

theorem cutEnds_append {α : Type} (front back : Nat) (items : List α) :
    (cutEnds front back items).1 ++
      ((cutEnds front back items).2.1 ++ (cutEnds front back items).2.2) = items := by
  rw [cutEnds_eq, List.take_append_drop, List.take_append_drop]

/-- Between the two ends of a closed pattern there is nothing. -/
theorem cutEnds_closed {α : Type} {front back : Nat} {items : List α}
    (h : takesLength front back false items.length = true) : (cutEnds front back items).2.1 = [] := by
  simp only [takesLength, Bool.false_and, Bool.or_false, decide_eq_true_eq] at h
  rw [cutEnds_eq, List.take_eq_nil_iff]
  omega

theorem cutChars_append {front back : Nat} {isOpen : Bool} {s : String}
    (h : takesLength front back isOpen s.length = true) :
    String.ofList (cutChars front back s).1 ++
      ((cutChars front back s).2.1 ++ String.ofList (cutChars front back s).2.2) = s := by
  have hle : front + back ≤ s.toList.length := by
    simp only [takesLength, Bool.or_eq_true, Bool.and_eq_true, decide_eq_true_eq] at h
    rw [String.length_toList]
    omega
  have hindex : front + (s.toList.length - front - back) = s.toList.length - back := by omega
  have hparts : (String.ofList (cutChars front back s).1 ++ ((cutChars front back s).2.1 ++
      String.ofList (cutChars front back s).2.2)).toList =
      s.toList.take front ++ ((s.toList.drop front).take (s.toList.length - front - back) ++
        s.toList.drop (s.toList.length - back)) := by
    simp [cutChars]
  rw [← String.toList_inj, hparts, ← hindex, ← List.drop_drop, List.take_append_drop,
    List.take_append_drop]

theorem cutChars_closed {front back : Nat} {s : String}
    (h : takesLength front back false s.length = true) : (cutChars front back s).2.1 = "" := by
  have hlength : front + back = s.toList.length := by
    simp only [takesLength, Bool.false_and, Bool.or_false, decide_eq_true_eq] at h
    rw [String.length_toList]
    exact h
  have hmiddle : (cutChars front back s).2.1.toList =
      (s.toList.drop front).take (s.toList.length - front - back) := by
    simp [cutChars]
  rw [← String.toList_inj, hmiddle, String.toList_empty, List.take_eq_nil_iff]
  omega

theorem isSome_templateOption? {rest : Option Pattern} {between : Option Template}
    (h : templateOption? rest = some between) : rest.isSome = between.isSome := by
  cases rest with
  | none =>
    cases h
    rfl
  | some pattern =>
    obtain ⟨template, -, rfl⟩ := Option.map_eq_some_iff.1 h
    rfl

mutual

/-- From the captures of a match, and from all that keep them, the template of the pattern builds
the term again. -/
theorem extend?_rebuilds (pattern : Pattern) {template : Template} {term : Term}
    {captures extended : Captures} (htemplate : pattern.template? = some template)
    (hpattern : ∀ literal ∈ pattern.terms, literal.WellKeyed) (hterm : term.WellKeyed)
    (h : pattern.extend? ∅ term captures = some extended) :
    Secures (fun final => template.Rebuilds final term) captures extended := by
  match pattern with
  | .bind name =>
    cases htemplate
    refine (secures_of_bind? hterm h).mono ?_
    rintro final ⟨stored, hget, hsame⟩
    exact ⟨stored, Template.build_capture hget, hsame⟩
  | .literal expected =>
    cases htemplate
    rw [extend?, Declarations.resolve_empty, Declarations.resolve_empty, Bool.or_self] at h
    split at h <;> cases h
    rename_i hbeq
    have hexpected : expected.WellKeyed := hpattern expected List.mem_cons_self
    exact ⟨.refl _, fun _ _ _ => ⟨expected, rfl, (Term.Same.of_beq hterm hexpected hbeq).symm⟩⟩
  | .seq front rest back =>
    obtain ⟨first, hfirst, htemplate⟩ := Option.bind_eq_some_iff.1 htemplate
    obtain ⟨between, hbetween, htemplate⟩ := Option.bind_eq_some_iff.1 htemplate
    obtain ⟨last, hlast, htemplate⟩ := Option.bind_eq_some_iff.1 htemplate
    cases htemplate
    simp only [terms, List.forall_mem_append] at hpattern
    rw [extend?, Declarations.resolve_empty] at h
    split at h
    · rename_i items
      split at h
      · rename_i htakes
        obtain ⟨hfront, hback⟩ := length_cutEnds htakes
        have hitems := forall_mem_cutEnds front.length back.length (Term.wellKeyed_seq.1 hterm)
        have hjoin := cutEnds_append front.length back.length items
        have hclosed : between = none → (cutEnds front.length back.length items).2.1 = [] := by
          rintro rfl
          rw [isSome_templateOption? hbetween] at htakes
          exact cutEnds_closed htakes
        generalize cutEnds front.length back.length items = cut at h hfront hback hitems hjoin hclosed
        obtain ⟨starting, middle, ending⟩ := cut
        obtain ⟨ended, hends, hrest⟩ := Option.bind_eq_some_iff.1 h
        obtain ⟨begun, hbegun, hended⟩ := Option.bind_eq_some_iff.1 hends
        have hparts := ((extendEach?_rebuilds front hfirst hpattern.1.1 hitems.1 hfront hbegun).and
          (extendEach?_rebuilds back hlast hpattern.2 hitems.2.2 hback hended)).and
          (extendRest?_rebuilds rest hbetween hpattern.1.2 (Term.wellKeyed_seq.2 hitems.2.1) hrest)
        refine hparts.mono ?_
        rintro final ⟨⟨hstarting, hending⟩, hmiddle⟩
        rw [← hjoin]
        exact Template.rebuilds_seq hstarting hmiddle hclosed hending
      · cases h
    · cases h
  | .chars front rest back =>
    obtain ⟨first, hfirst, htemplate⟩ := Option.bind_eq_some_iff.1 htemplate
    obtain ⟨between, hbetween, htemplate⟩ := Option.bind_eq_some_iff.1 htemplate
    obtain ⟨last, hlast, htemplate⟩ := Option.bind_eq_some_iff.1 htemplate
    cases htemplate
    simp only [terms, List.forall_mem_append] at hpattern
    rw [extend?, Declarations.resolve_empty] at h
    split at h
    · rename_i s
      split at h
      · rename_i htakes
        obtain ⟨hfront, hback⟩ := length_cutChars htakes
        have hjoin := cutChars_append htakes
        have hclosed : between = none → (cutChars front.length back.length s).2.1 = "" := by
          rintro rfl
          rw [isSome_templateOption? hbetween] at htakes
          exact cutChars_closed htakes
        generalize cutChars front.length back.length s = cut at h hfront hback hjoin hclosed
        obtain ⟨starting, middle, ending⟩ := cut
        obtain ⟨ended, hends, hrest⟩ := Option.bind_eq_some_iff.1 h
        obtain ⟨begun, hbegun, hended⟩ := Option.bind_eq_some_iff.1 hends
        have hchars : ∀ chars : List Char, ∀ item ∈ chars.map Term.ofChar, item.WellKeyed :=
          fun chars => List.forall_mem_map.2 fun _ _ => Term.wellKeyed_text _
        have hparts := ((extendEach?_rebuilds front hfirst hpattern.1.1 (hchars starting)
          ((List.length_map Term.ofChar).trans hfront) hbegun).and
          (extendEach?_rebuilds back hlast hpattern.2 (hchars ending)
            ((List.length_map Term.ofChar).trans hback) hended)).and
          (extendRest?_rebuilds rest hbetween hpattern.1.2 (Term.wellKeyed_text middle) hrest)
        refine hparts.mono ?_
        rintro final ⟨⟨hstarting, hending⟩, hmiddle⟩
        rw [← hjoin]
        exact Template.rebuilds_chars hstarting hmiddle hclosed hending
      · cases h
    · cases h
  | .text segments =>
    obtain ⟨pieces, hpieces, rfl⟩ := Option.map_eq_some_iff.1 htemplate
    rw [extend?, Declarations.resolve_empty] at h
    split at h
    · obtain ⟨runs, hcut, hruns⟩ := Option.bind_eq_some_iff.1 h
      refine (secures_of_foldlM_bind? hruns).mono fun final hbound => ?_
      refine ⟨_, ?_, .refl hterm⟩
      rw [Template.build, Segment.buildPieces_of_cut? hpieces hcut hbound]
      rfl
    · cases h
  | .apply head args =>
    obtain ⟨templates, htemplates, rfl⟩ := Option.map_eq_some_iff.1 htemplate
    rw [extend?, Declarations.resolve_empty] at h
    split at h
    · rename_i actual items
      split at h
      · rename_i hsame
        simp only [Bool.and_eq_true, decide_eq_true_eq] at hsame
        obtain ⟨rfl, hlength⟩ := hsame
        have hitems := Term.wellKeyed_apply.1 hterm
        refine (extendEach?_rebuilds args htemplates hpattern hitems hlength h).mono fun final hall => ?_
        obtain ⟨ys, hbuild, hys⟩ := Template.buildAll_rebuilds hall
        refine ⟨.apply actual ys, ?_, .of_shape Term.partByPart_normal (.apply actual hys) nofun⟩
        rw [Template.build, hbuild]
        rfl
      · cases h
    · cases h
  | .any | .named _ _ | .kind _ | .fits _ | .alt _ | .composite _ | .function _ _ _ _ => cases htemplate
termination_by structural pattern

theorem extendEach?_rebuilds (patterns : List Pattern) {templates : List Template} {items : List Term}
    {captures extended : Captures} (htemplates : templates? patterns = some templates)
    (hpatterns : ∀ literal ∈ termsAll patterns, literal.WellKeyed) (hitems : ∀ item ∈ items, item.WellKeyed)
    (hlength : items.length = patterns.length)
    (h : extendEach? ∅ patterns items captures = some extended) :
    Secures (fun final => List.Forall₂ (Template.Rebuilds final) templates items) captures extended := by
  match patterns, items with
  | [], [] =>
    cases htemplates
    cases h
    exact ⟨.refl _, fun _ _ _ => .nil⟩
  | pattern :: patterns, item :: items =>
    obtain ⟨template, htemplate, hrest⟩ := Option.bind_eq_some_iff.1 htemplates
    obtain ⟨others, hothers, hsome⟩ := Option.bind_eq_some_iff.1 hrest
    cases hsome
    rw [termsAll, List.forall_mem_append] at hpatterns
    rw [List.forall_mem_cons] at hitems
    obtain ⟨bound, hfirst, hnext⟩ := Option.bind_eq_some_iff.1 h
    refine ((extend?_rebuilds pattern htemplate hpatterns.1 hitems.1 hfirst).and
      (extendEach?_rebuilds patterns hothers hpatterns.2 hitems.2 (Nat.succ.inj hlength) hnext)).mono ?_
    exact fun final hall => .cons hall.1 hall.2
termination_by structural patterns

theorem extendRest?_rebuilds (rest : Option Pattern) {between : Option Template} {term : Term}
    {captures extended : Captures} (hbetween : templateOption? rest = some between)
    (hrest : ∀ literal ∈ termsOption rest, literal.WellKeyed) (hterm : term.WellKeyed)
    (h : extendRest? ∅ rest term captures = some extended) :
    Secures (fun final => ∀ template ∈ between, template.Rebuilds final term) captures extended := by
  match rest with
  | none =>
    cases hbetween
    cases h
    exact ⟨.refl _, fun _ _ _ _ hmem => nomatch hmem⟩
  | some pattern =>
    obtain ⟨template, htemplate, rfl⟩ := Option.map_eq_some_iff.1 hbetween
    refine (extend?_rebuilds pattern htemplate hrest hterm h).mono fun final hfinal other hother => ?_
    cases hother
    exact hfinal
termination_by structural rest

end

/-- Rewriting undoes matching: the template of a pattern builds from the captures of a match a term
that is equal to the one that was matched. -/
theorem instantiate_of_captures? {pattern : Pattern} {template : Template} {term : Term}
    {captures : Captures} (htemplate : pattern.template? = some template)
    (hpattern : pattern.WellKeyed) (hterm : term.WellKeyed)
    (h : pattern.captures? ∅ term = some captures) :
    ∃ rebuilt, template.instantiate ∅ captures = .ok rebuilt ∧ (rebuilt == term) = true := by
  have hcaptures : captures.WellKeyed :=
    (captures?_normal Declarations.wellKeyed_empty hpattern hterm).2 captures h
  obtain ⟨rebuilt, hbuild, hsame⟩ :=
    (extend?_rebuilds pattern htemplate hpattern hterm h).holds captures hcaptures (.refl captures)
  exact ⟨rebuilt, Template.instantiate_of_build hbuild, hsame.beq⟩

/-- A field in front that stands at the end again, a word taken apart by its first character, and a
setting. -/
def twice : Pattern :=
  .seq [.bind "field", firstChar (.bind "initial") (.bind "others"),
    .text [.run "name", .literal ["="], .run "value"]] (some (.bind "between")) [.bind "field"]

/-- The composites at both ends have their fields in two orders. The first of them is what is bound,
and so what stands at both ends afterwards. -/
theorem instantiate_twice :
    ∃ template captures rebuilt, twice.template? = some template ∧
      twice.captures? ∅ (.seq [.composite [⟨"x", .int 1, {}⟩, ⟨"y", .int 2, {}⟩], .text "word",
        .text "a=b", .int 3, .composite [⟨"y", .int 2, {}⟩, ⟨"x", .int 1, {}⟩]]) = some captures ∧
      template.instantiate ∅ captures = .ok rebuilt ∧
      (rebuilt == .seq [.composite [⟨"x", .int 1, {}⟩, ⟨"y", .int 2, {}⟩], .text "word",
        .text "a=b", .int 3, .composite [⟨"y", .int 2, {}⟩, ⟨"x", .int 1, {}⟩]]) = true := by
  obtain ⟨template, htemplate⟩ : ∃ template, twice.template? = some template := ⟨_, rfl⟩
  have hmatches : (twice.captures? ∅ (.seq [.composite [⟨"x", .int 1, {}⟩, ⟨"y", .int 2, {}⟩],
      .text "word", .text "a=b", .int 3, .composite [⟨"y", .int 2, {}⟩, ⟨"x", .int 1, {}⟩]])).isSome =
      true := by decide +kernel
  obtain ⟨captures, hcaptures⟩ := Option.isSome_iff_exists.1 hmatches
  obtain ⟨rebuilt, hrebuilt, hbeq⟩ := instantiate_of_captures? htemplate
    (by simp [WellKeyed, twice, firstChar, terms, termsAll, termsOption])
    (by simp [Composite.Distinct, Composite.keys, Term.int]) hcaptures
  exact ⟨template, captures, rebuilt, htemplate, hcaptures, hrebuilt, hbeq⟩

end Pattern

end Reshape
