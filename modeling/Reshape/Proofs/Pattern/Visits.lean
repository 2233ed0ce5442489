import Reshape.Proofs.Pattern.Cut
import Reshape.Proofs.Pattern.Normal

/-!
# What a match visits and collects

A match visits every pattern inside of a pattern with a part of the term (`Pattern.Visits`). Each of
them asks something of its part (`Pattern.Suits`) and may collect names for terms (`Pattern.own`).
All of this is said without captures, and for the patterns in no particular order.

What a match visits and collects is the term, or else taken out of what a term stands for, again and
again (`Term.Offers`). So a property that is passed on in that way holds of all that is collected
(`Pattern.Collects.inherits`).
-/

namespace Reshape

/-! ## What is taken out of terms -/

/-- What may be taken out of a term: a part of it, some of its parts in a row, a piece of a text, or
`unknown` for a part that is missing. -/
inductive Term.Offers (term : Term) : Term → Prop where
  | part {part : Term} : part ∈ term.children → Offers term part
  | run {items : List Term} : items.Sublist term.children → Offers term (.seq items)
  | piece {s piece : String} : term = .text s → piece.length ≤ s.length → Offers term (.text piece)
  | missing : Offers term .unknown

namespace Declarations

variable {decls : Declarations} {P : Term → Prop} {term sub : Term}

/-- The property is passed on from a term to what it stands for, and to all that it offers. -/
structure PassesOn (decls : Declarations) (P : Term → Prop) : Prop where
  resolve : ∀ {term : Term}, P term → P (decls.resolve term)
  offers : ∀ {term sub : Term}, P term → term.Offers sub → P sub

theorem PassesOn.of_eq_or_offers (hP : decls.PassesOn P)
    (h : sub = term ∨ (decls.resolve term).Offers sub) (hterm : P term) : P sub := by
  rcases h with rfl | hoffers
  · exact hterm
  · exact hP.offers (hP.resolve hterm) hoffers

theorem WellKeyed.passesOn (hdecls : decls.WellKeyed) : decls.PassesOn Term.WellKeyed where
  resolve := hdecls.resolve
  offers hterm hoffers := by
    cases hoffers with
    | part hpart => exact hterm.of_mem_children hpart
    | run hitems =>
      exact Term.wellKeyed_seq.2 fun item hmem => hterm.of_mem_children (hitems.subset hmem)
    | piece _ _ => exact Term.wellKeyed_text _
    | missing => exact Term.wellKeyed_atom _

end Declarations

/-! ## Patterns without alternations -/

namespace Pattern

mutual

/-- Whether no alternation stands in the pattern. -/
def altFree : Pattern → Bool
  | .any | .bind _ | .literal _ | .kind _ | .fits _ | .text _ => true
  | .alt _ => false
  | .named _ inner => altFree inner
  | .seq front rest back | .chars front rest back =>
    altFreeAll front && altFreeOption rest && altFreeAll back
  | .composite fields => altFreeFields fields
  | .apply _ args => altFreeAll args
  | .function _ receiver params result => altFreeOption receiver && altFree params && altFree result
termination_by structural pattern => pattern

def altFreeAll : List Pattern → Bool
  | [] => true
  | pattern :: rest => altFree pattern && altFreeAll rest
termination_by structural patterns => patterns

def altFreeOption : Option Pattern → Bool
  | none => true
  | some pattern => altFree pattern
termination_by structural pattern => pattern

def altFreeFields : List (FieldPattern Pattern) → Bool
  | [] => true
  | ⟨_, _, value⟩ :: rest => altFree value && altFreeFields rest
termination_by structural fields => fields

end

/-! ## Visits -/

/-- The elements between the first `front` and the last `back` ones. -/
def between {α : Type} (front back : Nat) (items : List α) : List α :=
  (items.drop front).take (items.length - front - back)

theorem between_sublist {α : Type} (front back : Nat) (items : List α) :
    (between front back items).Sublist items :=
  (List.take_sublist _ _).trans (List.drop_sublist _ _)

theorem length_between {α : Type} (front back : Nat) (items : List α) :
    (between front back items).length = items.length - front - back := by
  rw [between, List.length_take, List.length_drop]
  omega

/-- The patterns for both ends of a list with their elements, and the one for the run between with
that. -/
def endParts (front : List Pattern) (rest : Option Pattern) (back : List Pattern) (items : List Term)
    (run : Term) : List (Pattern × Term) :=
  front.zip items ++ back.zip (items.drop (items.length - back.length)) ++ rest.toList.map (·, run)

/-- The patterns of fields, with the terms that they look at. -/
def fieldParts (fields : List (FieldPattern Pattern)) (entries : Composite) : List (Pattern × Term) :=
  fields.filterMap fun field =>
    (field.presence.select? (entries.get? field.key)).map (field.value, ·)

variable (decls : Declarations)

/-- The patterns directly inside of a pattern, with the parts of the term that are theirs. -/
def parts : Pattern → Term → List (Pattern × Term)
  | .named _ inner, term => [(inner, term)]
  | .seq front rest back, term =>
    match decls.resolve term with
    | .seq items => endParts front rest back items (.seq (between front.length back.length items))
    | _ => []
  | .chars front rest back, term =>
    match decls.resolve term with
    | .text s => endParts front rest back (s.toList.map .ofChar)
        (.text (.ofList (between front.length back.length s.toList)))
    | _ => []
  | .composite fields, term =>
    match decls.resolve term with
    | .composite entries => fieldParts fields entries
    | _ => []
  | .apply _ args, term =>
    match decls.resolve term with
    | .apply _ items => args.zip items
    | _ => []
  | .function _ receiver params result, term =>
    match decls.resolve term with
    | .function _ given items value =>
      receiver.toList.map (·, given.getD .unknown) ++ [(params, .seq items), (result, value)]
    | _ => []
  | _, _ => []

/-- The pattern is matched against the term somewhere in a match of another one. -/
inductive Visits : Pattern → Term → Pattern → Term → Prop where
  | here (pattern : Pattern) (term : Term) : Visits pattern term pattern term
  | inside {pattern part inner : Pattern} {term sub target : Term} :
      (part, sub) ∈ pattern.parts decls term → Visits part sub inner target →
      Visits pattern term inner target

/-- Both ends have their elements, and there are others only if there is a pattern for the run
between. -/
def TakesLength (front : List Pattern) (rest : Option Pattern) (back : List Pattern) (n : Nat) : Prop :=
  front.length + back.length ≤ n ∧ (rest = none → n = front.length + back.length)

/-- What a pattern asks of a term, apart from what the patterns inside of it ask of its parts. An
alternation is never asked: it stands for several patterns. -/
def Suits : Pattern → Term → Prop
  | .any, _ | .bind _, _ | .named _ _, _ => True
  | .literal expected, term =>
    (term == expected) = true ∨ (decls.resolve term == decls.resolve expected) = true
  | .kind k, term => (decls.resolve term).kind = k
  | .fits target, term => decls.assignable term target = true
  | .alt _, _ => False
  | .seq front rest back, term =>
    ∃ items, decls.resolve term = .seq items ∧ TakesLength front rest back items.length
  | .chars front rest back, term =>
    ∃ s, decls.resolve term = .text s ∧ TakesLength front rest back s.length
  | .text segments, term =>
    ∃ s, decls.resolve term = .text s ∧ (Segment.cut? segments s).isSome = true
  | .composite fields, term =>
    ∃ entries : Composite, decls.resolve term = .composite entries ∧
      ∀ field ∈ fields, (field.presence.select? (entries.get? field.key)).isSome = true
  | .apply head args, term =>
    ∃ items, decls.resolve term = .apply head items ∧ items.length = args.length
  | .function k _ _ _, term => ∃ given items value, decls.resolve term = .function k given items value

/-- The names that a pattern collects for a term itself, and what for. -/
def own : Pattern → Term → List (String × Term)
  | .bind name, term | .named name _, term => [(name, term)]
  | .text segments, term =>
    match decls.resolve term with
    | .text s => ((Segment.cut? segments s).getD []).map fun (name, run) => (name, .text run)
    | _ => []
  | _, _ => []

/-- All that a match visits suits. -/
def SuitsThroughout (pattern : Pattern) (term : Term) : Prop :=
  ∀ inner target, Visits decls pattern term inner target → inner.Suits decls target

/-- A name is collected for a term somewhere in a match. -/
def Collects (pattern : Pattern) (term : Term) (name : String) (collected : Term) : Prop :=
  ∃ inner target, Visits decls pattern term inner target ∧ (name, collected) ∈ inner.own decls target

variable {decls} {pattern : Pattern} {term collected : Term} {name : String}

theorem visits_iff {inner : Pattern} {target : Term} :
    Visits decls pattern term inner target ↔
      (inner = pattern ∧ target = term) ∨
        ∃ part ∈ pattern.parts decls term, Visits decls part.1 part.2 inner target := by
  constructor
  · rintro (_ | ⟨hpart, hvisits⟩)
    · exact .inl ⟨rfl, rfl⟩
    · exact .inr ⟨_, hpart, hvisits⟩
  · rintro (⟨rfl, rfl⟩ | ⟨part, hpart, hvisits⟩)
    · exact .here inner target
    · exact .inside hpart hvisits

theorem suitsThroughout_iff :
    SuitsThroughout decls pattern term ↔ pattern.Suits decls term ∧
      ∀ part ∈ pattern.parts decls term, SuitsThroughout decls part.1 part.2 := by
  constructor
  · intro h
    exact ⟨h _ _ (.here _ _), fun part hpart inner target hvisits => h _ _ (.inside hpart hvisits)⟩
  · rintro ⟨hself, hparts⟩ inner target hvisits
    rcases visits_iff.1 hvisits with ⟨rfl, rfl⟩ | ⟨part, hpart, hinside⟩
    · exact hself
    · exact hparts part hpart inner target hinside

theorem collects_iff :
    Collects decls pattern term name collected ↔ (name, collected) ∈ pattern.own decls term ∨
      ∃ part ∈ pattern.parts decls term, Collects decls part.1 part.2 name collected := by
  constructor
  · rintro ⟨inner, target, hvisits, hown⟩
    rcases visits_iff.1 hvisits with ⟨rfl, rfl⟩ | ⟨part, hpart, hinside⟩
    · exact .inl hown
    · exact .inr ⟨part, hpart, inner, target, hinside, hown⟩
  · rintro (hown | ⟨part, hpart, inner, target, hinside, hown⟩)
    · exact ⟨pattern, term, .here _ _, hown⟩
    · exact ⟨inner, target, .inside hpart hinside, hown⟩

/-! ## What is passed on to what is visited -/

section

variable {P : Term → Prop} {part inner : Pattern} {sub target : Term}

theorem mem_endParts {front back : List Pattern} {rest : Option Pattern} {items : List Term} {run : Term}
    (h : (part, sub) ∈ endParts front rest back items run) :
    (part ∈ front ∨ part ∈ back) ∧ sub ∈ items ∨ part ∈ rest ∧ sub = run := by
  simp only [endParts, List.mem_append] at h
  rcases h with (h | h) | h
  · obtain ⟨hpart, hsub⟩ := List.of_mem_zip h
    exact .inl ⟨.inl hpart, hsub⟩
  · obtain ⟨hpart, hsub⟩ := List.of_mem_zip h
    exact .inl ⟨.inr hpart, List.mem_of_mem_drop hsub⟩
  · obtain ⟨_, hpart, heq⟩ := List.mem_map.1 h
    cases heq
    exact .inr ⟨Option.mem_toList.1 hpart, rfl⟩

/-- A pattern inside of a pattern looks at the same term, or at what the resolved term offers. -/
theorem offers_of_mem_parts (h : (part, sub) ∈ pattern.parts decls term) :
    sub = term ∨ (decls.resolve term).Offers sub := by
  cases pattern with
  | named name inner =>
    cases List.mem_singleton.1 h
    exact .inl rfl
  | seq front rest back =>
    refine .inr ?_
    rw [parts] at h
    split at h
    · rename_i items hitems
      rw [hitems]
      rcases mem_endParts h with ⟨-, hmem⟩ | ⟨-, rfl⟩
      · exact .part hmem
      · exact .run (between_sublist ..)
    · cases h
  | chars front rest back =>
    refine .inr ?_
    rw [parts] at h
    split at h
    · rename_i s hs
      rcases mem_endParts h with ⟨-, hmem⟩ | ⟨-, rfl⟩
      · obtain ⟨c, hc, rfl⟩ := List.mem_map.1 hmem
        refine .piece hs ?_
        rw [String.length_singleton, ← String.length_toList]
        exact List.length_pos_of_mem hc
      · refine .piece hs ?_
        rw [String.length_ofList, ← String.length_toList]
        exact (between_sublist ..).length_le
    · cases h
  | composite fields =>
    refine .inr ?_
    rw [parts] at h
    split at h
    · rename_i entries hentries
      rw [hentries]
      obtain ⟨field, -, hselect⟩ := List.mem_filterMap.1 h
      obtain ⟨value, hvalue, heq⟩ := Option.map_eq_some_iff.1 hselect
      cases heq
      exact forall_of_select? .missing hvalue fun entry hget =>
        .part (List.mem_map_of_mem (Composite.mem_of_get? hget).1)
    · cases h
  | apply head args =>
    refine .inr ?_
    rw [parts] at h
    split at h
    · rename_i actual items hitems
      rw [hitems]
      exact .part (List.of_mem_zip h).2
    · cases h
  | function k receiver params result =>
    refine .inr ?_
    rw [parts] at h
    split at h
    · rename_i actual given items value hfunction
      rw [hfunction]
      have hitems : items.Sublist (given.toList ++ items ++ [value]) :=
        (List.sublist_append_right _ _).trans (List.sublist_append_left _ _)
      rcases List.mem_append.1 h with h | h
      · obtain ⟨_, -, heq⟩ := List.mem_map.1 h
        cases heq
        cases given with
        | none => exact .missing
        | some receiver => exact .part List.mem_cons_self
      · rcases List.mem_cons.1 h with heq | h
        · cases heq
          exact .run hitems
        · cases List.mem_singleton.1 h
          exact .part (List.mem_append_right _ List.mem_cons_self)
    · cases h
  | any | bind _ | literal _ | kind _ | fits _ | alt _ | text _ => cases h

/-- A text pattern collects the runs of the cut that is found. -/
theorem exists_cut_of_mem_own {segments : List Segment}
    (h : (name, collected) ∈ (Pattern.text segments).own decls term) :
    ∃ s runs run, decls.resolve term = .text s ∧ Segment.cut? segments s = some runs ∧
      (name, run) ∈ runs ∧ collected = .text run := by
  rw [own] at h
  split at h
  · rename_i s hs
    obtain ⟨⟨other, run⟩, hrun, heq⟩ := List.mem_map.1 h
    cases heq
    cases hcut : Segment.cut? segments s with
    | none =>
      rw [hcut] at hrun
      cases hrun
    | some runs =>
      rw [hcut] at hrun
      exact ⟨s, runs, run, hs, hcut, hrun, rfl⟩
  · cases h

/-- A pattern collects the term itself, or what the resolved term offers. -/
theorem offers_of_mem_own (h : (name, collected) ∈ pattern.own decls term) :
    collected = term ∨ (decls.resolve term).Offers collected := by
  cases pattern with
  | bind _ | named _ _ =>
    cases List.mem_singleton.1 h
    exact .inl rfl
  | text segments =>
    obtain ⟨s, runs, run, hs, hcut, hrun, rfl⟩ := exists_cut_of_mem_own h
    exact .inr (.piece hs (Segment.length_le_of_cut? hcut hrun))
  | _ => cases h

theorem Visits.inherits (hP : decls.PassesOn P) (h : Visits decls pattern term inner target)
    (hterm : P term) : P target := by
  induction h with
  | here _ _ => exact hterm
  | inside hpart _ ih => exact ih (hP.of_eq_or_offers (offers_of_mem_parts hpart) hterm)

/-- What is passed on from terms holds of all that is collected if it holds of the term. -/
theorem Collects.inherits (hP : decls.PassesOn P) (h : Collects decls pattern term name collected)
    (hterm : P term) : P collected := by
  obtain ⟨inner, target, hvisits, hown⟩ := h
  exact hP.of_eq_or_offers (offers_of_mem_own hown) (hvisits.inherits hP hterm)

theorem Collects.wellKeyed (h : Collects decls pattern term name collected) (hdecls : decls.WellKeyed)
    (hterm : term.WellKeyed) : collected.WellKeyed :=
  h.inherits hdecls.passesOn hterm

end

end Pattern

end Reshape
