import Reshape.Proofs.Pattern.Choices
import Reshape.Proofs.Pattern.Equality
import Reshape.Proofs.Term.Size
import Reshape.Reduction.Step

/-!
# Sizes of what a match binds

Where nothing is declared, a match binds nothing that is larger than the term. It goes from a term to
its parts, and what it puts together itself, a run of elements, the parameters of a signature, a text of
one character or `unknown` for what is absent, has no more nodes than what it is taken from
(`Term.Offers.size_le`).

A character is as large as the text that consists of it, for each of them counts as a text. The run
between both ends is smaller than the term as soon as an element stands at one of them, and so is all
that is bound inside of the pattern for the run: every rule can feed it back
(`Pattern.captures_within_source`).
-/

namespace Reshape

/-- What is taken out of a term is no larger. -/
theorem Term.Offers.size_le {term sub : Term} (h : term.Offers sub) : sub.size ≤ term.size := by
  cases h with
  | part hpart => exact Nat.le_of_lt (size_lt_of_mem_children hpart)
  | run hitems =>
    have hsizes := sizeAll_le_of_sublist hitems
    have hchildren := term.sizeAll_children_lt
    rw [size]
    omega
  | piece heq hlength =>
    rw [heq]
    exact Nat.add_le_add_left hlength 1
  | missing => exact term.size_pos

namespace Pattern

variable {pattern inner rest : Pattern} {term run bound collected : Term} {name : String}
  {front back : List Pattern} {captures : Captures}

/-! ## The run between both ends -/

/-- The run between both ends of a sequence or a text. -/
def run? : Pattern → Term → Option Term
  | .seq front _ back, .seq items => some (.seq (between front.length back.length items))
  | .chars front _ back, .text s =>
    some (.text (.ofList (between front.length back.length s.toList)))
  | _, _ => none

/-- The pattern with another one for the run between both ends. -/
def withRest : Pattern → Pattern → Pattern
  | .seq front _ back, rest => .seq front (some rest) back
  | .chars front _ back, rest => .chars front (some rest) back
  | pattern, _ => pattern

/-- A run is smaller if an element stands at an end. -/
theorem size_between_lt {front back : Nat} {items : List Term} (hle : front + back ≤ items.length)
    (hpos : 0 < front + back) : (Term.seq (between front back items)).size < (Term.seq items).size := by
  have hsizes := Term.sizeAll_add_length_le (between_sublist front back items)
  rw [length_between] at hsizes
  rw [Term.size, Term.size]
  omega

theorem size_textBetween_lt {front back : Nat} {s : String} (hle : front + back ≤ s.length)
    (hpos : 0 < front + back) :
    (Term.text (.ofList (between front back s.toList))).size < (Term.text s).size := by
  rw [Term.size, Term.size, String.length_ofList, length_between, String.length_toList]
  omega

theorem length_pos_of_ends (h : front ≠ [] ∨ back ≠ []) : 0 < front.length + back.length := by
  rcases h with hfront | hback
  · exact Nat.add_pos_left (List.length_pos_iff.2 hfront) _
  · exact Nat.add_pos_right _ (List.length_pos_iff.2 hback)

/-! ## What is bound -/

/-- Where nothing is declared, a bound on the size is passed on. -/
theorem passesOn_size_le (n : Nat) : (∅ : Declarations).PassesOn (·.size ≤ n) where
  resolve hterm := by rwa [Declarations.resolve_empty]
  offers hterm hoffers := Nat.le_trans hoffers.size_le hterm

theorem Collects.size_le (h : Collects ∅ pattern term name collected) :
    collected.size ≤ term.size :=
  h.inherits (passesOn_size_le term.size) (Nat.le_refl _)

/-- What is bound inside of a pattern, and was not bound before, is no larger than the term. -/
theorem size_le_of_extend? {extended : Captures} (h : pattern.extend? ∅ term captures = some extended)
    (hbefore : captures.get? name = none) (hget : extended.get? name = some bound) :
    bound.size ≤ term.size := by
  obtain ⟨chosen, hchooses, hchosen⟩ := extend?_chooses pattern h
  rcases collects_of_extend? hchooses.altFree hchosen hget with hbound | hcollects
  · cases hbefore.symm.trans hbound
  · exact hcollects.size_le

/-! ## The run and what is bound inside -/

/-- With the pattern for the run, a match goes on from what the ends bind. -/
theorem extendEnds?_some (decls : Declarations) (items : List Term) :
    extendEnds? decls front (some rest) back items run captures =
      (extendEnds? decls front (some .any) back items run captures).bind (rest.extend? decls run) := by
  have hany : extendRest? decls (some .any) run = some := funext fun _ => rfl
  rw [extendEnds?, extendEnds?, hany, Option.bind_fun_some]
  rfl

/-- A match with a pattern for the run is one of the ends, and then of that pattern with the run. The run
is smaller than the term if an element stands at an end. -/
theorem exists_run?
    (hshape : pattern = .seq front (some rest) back ∨ pattern = .chars front (some rest) back)
    (hends : front ≠ [] ∨ back ≠ []) (h : pattern.captures? ∅ term = some captures) :
    ∃ run ended, pattern.run? term = some run ∧
      (pattern.withRest .any).captures? ∅ term = some ended ∧
      rest.extend? ∅ run ended = some captures ∧ run.size < term.size := by
  have hpos := length_pos_of_ends hends
  rcases hshape with rfl | rfl
  · obtain ⟨items, hitems, htakes⟩ := exists_of_extend?_seq h
    have hany : TakesLength front (some .any) back items.length := ⟨htakes.1, nofun⟩
    rw [captures?, extend?_seq hitems htakes, extendEnds?_some] at h
    obtain ⟨ended, hended, hrun⟩ := Option.bind_eq_some_iff.1 h
    rw [← extend?_seq hitems hany] at hended
    rw [Declarations.resolve_empty] at hitems
    subst hitems
    exact ⟨_, ended, rfl, hended, hrun, size_between_lt htakes.1 hpos⟩
  · obtain ⟨s, hs, htakes⟩ := exists_of_extend?_chars h
    have hany : TakesLength front (some .any) back s.length := ⟨htakes.1, nofun⟩
    rw [captures?, extend?_chars hs htakes, extendEnds?_some] at h
    obtain ⟨ended, hended, hrun⟩ := Option.bind_eq_some_iff.1 h
    rw [← extend?_chars hs hany] at hended
    rw [Declarations.resolve_empty] at hs
    subst hs
    exact ⟨_, ended, rfl, hended, hrun, size_textBetween_lt htakes.1 hpos⟩

/-- A match of a pattern for a sequence binds only what is smaller, if an element stands at an end. -/
theorem size_lt_of_captures?_seq {rest : Option Pattern} (hends : front ≠ [] ∨ back ≠ [])
    (h : (Pattern.seq front rest back).captures? ∅ term = some captures)
    (hget : captures.get? name = some bound) : bound.size < term.size := by
  have hpos := length_pos_of_ends hends
  obtain ⟨chosen, hchooses, hchosen⟩ := extend?_chooses _ h
  have hcollects := collects_of_captures? hchooses.altFree hchosen hget
  cases hchooses with
  | seq hfront hrest hback =>
    rw [hfront.length_eq, hback.length_eq] at hpos
    obtain ⟨items, hitems, htakes⟩ := exists_of_extend?_seq hchosen
    rcases collects_iff.1 hcollects with hown | ⟨⟨part, sub⟩, hpart, hinside⟩
    · cases hown
    · rw [parts_seq hitems] at hpart
      rw [Declarations.resolve_empty] at hitems
      subst hitems
      refine Nat.lt_of_le_of_lt hinside.size_le ?_
      rcases mem_endParts hpart with ⟨-, hmem⟩ | ⟨-, rfl⟩
      · exact Term.size_lt_of_mem_children hmem
      · exact size_between_lt htakes.1 hpos

/-- What is bound in a match of a text has as many nodes as what is equal to it and collected from a
text. -/
theorem size_eq_of_beq_text {s s' : String} {made : Term}
    (h : pattern.captures? ∅ (.text s) = some captures) (hget : captures.get? name = some bound)
    (hmade : Collects ∅ inner (.text s') name made) (hequal : (bound == made) = true) :
    bound.size = made.size := by
  have hdecls := Declarations.wellKeyed_empty
  have hbound := inherits_of_captures? hdecls.passesOn h hget (Term.wellKeyed_text s)
  exact (Term.Same.of_beq hbound (hmade.wellKeyed hdecls (Term.wellKeyed_text s')) hequal).size_eq

/-- Nothing that a match binds is larger than the term. If an element stands at an end of a sequence or a
text, the match first comes to what the ends bind, and then what is bound inside of the pattern for the
run between them, new or equal to what the ends bind, is smaller than the term; every rule admits it
when it is fed back. -/
theorem captures_within_source (h : pattern.captures? ∅ term = some captures) :
    (∀ name bound, captures.get? name = some bound → bound.size ≤ term.size) ∧
    ∀ front rest back,
      pattern = .seq front (some rest) back ∨ pattern = .chars front (some rest) back →
      front ≠ [] ∨ back ≠ [] →
      ∃ run ended, pattern.run? term = some run ∧
        (pattern.withRest .any).captures? ∅ term = some ended ∧
        rest.extend? ∅ run ended = some captures ∧
        ∀ name bound, captures.get? name = some bound →
          (ended.get? name = none ∨ ∃ chosen made, Chooses rest chosen ∧
            Collects ∅ chosen run name made ∧ (bound == made) = true) →
          bound.size < term.size ∧ ∀ rule : Rule, rule.admitFeedback term bound = .ok () := by
  refine ⟨fun _ _ hget => inherits_of_captures? (passesOn_size_le term.size) h hget (Nat.le_refl _),
    fun front rest back hshape hends => ?_⟩
  obtain ⟨run, ended, hrun, hended, hrest, hless⟩ := exists_run? hshape hends h
  refine ⟨run, ended, hrun, hended, hrest, fun name bound hget hinside => ?_⟩
  have hsmaller : bound.size < term.size := by
    rcases hinside with hnew | ⟨chosen, made, -, hcollects, hequal⟩
    · exact Nat.lt_of_le_of_lt (size_le_of_extend? hrest hnew hget) hless
    · rcases hshape with rfl | rfl
      · exact size_lt_of_captures?_seq hends h hget
      · cases term with
        | text s =>
          cases hrun
          rw [size_eq_of_beq_text h hget hcollects hequal]
          exact Nat.lt_of_le_of_lt hcollects.size_le hless
        | _ => cases hrun
  exact ⟨hsmaller, fun rule => rule.admitFeedback_of_size_lt hsmaller⟩

/-- The first character of a text and the rest of it, without an exclamation mark at the end if there is
one. -/
def firstAndStem : Pattern :=
  firstChar (.bind "first") (.alt [.text [.run (some "stem"), .literal ["!"]], .bind "stem"])

/-- A text of one character is as large as the character, and the rest of it is smaller. -/
theorem captures_within_letter :
    ∃ captures, firstAndStem.captures? ∅ (.text "a") = some captures ∧
      (captures.get? "first").map Term.size = some (Term.text "a").size ∧
      ∃ stem, captures.get? "stem" = some stem ∧ stem.size < (Term.text "a").size ∧
        ∀ rule : Rule, rule.admitFeedback (.text "a") stem = .ok () := by
  have hmatches : (firstAndStem.captures? ∅ (.text "a")).map (fun captures =>
      ((captures.get? "first").map Term.size, (captures.get? "stem").isSome)) =
        some (some 2, true) := by decide +kernel
  have hends : ((firstAndStem.withRest .any).captures? ∅ (.text "a")).map (·.contains "stem") =
      some false := by decide +kernel
  obtain ⟨captures, hcaptures, hpair⟩ := Option.map_eq_some_iff.1 hmatches
  obtain ⟨hfirst, hstem⟩ := Prod.mk.inj hpair
  obtain ⟨stem, hstem⟩ := Option.isSome_iff_exists.1 hstem
  obtain ⟨-, hrest⟩ := captures_within_source hcaptures
  obtain ⟨run, ended, -, hended, -, hsmaller⟩ := hrest _ _ _ (.inr rfl) (.inl nofun)
  rw [hended, Option.map_some, Option.some_inj] at hends
  have hnew : ended.get? "stem" = none := Option.not_isSome_iff_eq_none.1 (Bool.eq_false_iff.1 hends)
  exact ⟨captures, hcaptures, hfirst, stem, hstem, hsmaller "stem" stem hstem (.inl hnew)⟩

end Pattern

end Reshape
