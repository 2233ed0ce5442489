import Reshape.Assignable
import Reshape.Captures
import Reshape.Pattern.Cut

/-!
# Matching

Matching a term against a pattern extends a set of captures, or fails and binds
nothing. References are resolved before a term's shape is looked at, so a
pattern sees through declared names; a capture is the term as it was written.

In a sequence the elements at the front are matched first, then those at the
back, then the run between them; in an alternation the first alternative that
matches counts, starting from the captures before it.
-/

namespace Reshape

/-- Whether a pattern for `front` elements at the start, `back` at the end and a run
between them can take `length` elements. The run must be empty unless it is open. -/
def takesLength (front back : Nat) (isOpen : Bool) (length : Nat) : Bool :=
  front + back = length || (isOpen && front + back < length)

/-- The first `front` elements of a list, the run between, and the last `back`
elements. A list is shared with its rest, so a run up to the end is not copied. -/
def cutEnds {α : Type} (front back : Nat) (items : List α) : List α × List α × List α :=
  let rest := items.drop front
  if back = 0 then (items.take front, rest, [])
  else
    let between := rest.length - back
    (items.take front, rest.take between, rest.drop between)

theorem cutEnds_eq {α : Type} (front back : Nat) (items : List α) :
    cutEnds front back items =
      (items.take front, (items.drop front).take (items.length - front - back),
        (items.drop front).drop (items.length - front - back)) := by
  have hlen : (items.drop front).length = items.length - front := List.length_drop
  by_cases h : back = 0
  · simp only [cutEnds, h, if_true, Nat.sub_zero, ← hlen, List.take_length, List.drop_length]
  · simp only [cutEnds, h, if_false, hlen]

/-- The first `front` characters of a text, the run between, and the last `back`
characters. -/
def cutChars (front back : Nat) (s : String) : List Char × String × List Char :=
  ((s.take front).copy.toList, ((s.drop front).dropEnd back).copy, (s.takeEnd back).copy.toList)

/-- A character as a text of its own. -/
def Term.ofChar (c : Char) : Term := .text (String.singleton c)

/-- What a field pattern looks at: the value under its key, if the field is
there as it should be. -/
def Presence.select? (presence : Presence) (field : Option (Entry Term)) : Option Term :=
  match presence, field with
  | .required, some field => if field.modifiers.optional then none else some field.value
  | .declared, some field | .maybeAbsent, some field => some field.value
  | .maybeAbsent, none => some .unknown
  | .required, none | .declared, none => none

namespace Pattern

variable (decls : Declarations)

mutual

/-- The captures extended by those of a match, if the term matches. -/
def extend? : Pattern → Term → Captures → Option Captures
  | .any, _, captures => some captures
  | .bind name, term, captures => captures.bind? name term
  | .named name inner, term, captures =>
    (extend? inner term captures).bind (·.bind? name term)
  | .literal expected, term, captures =>
    if term == expected || decls.resolve term == decls.resolve expected then some captures
    else none
  | .kind k, term, captures =>
    if (decls.resolve term).kind = k then some captures else none
  | .fits target, term, captures =>
    if decls.assignable term target then some captures else none
  | .alt alternatives, term, captures => extendFirst? alternatives term captures
  | .seq front rest back, term, captures =>
    match decls.resolve term with
    | .seq items =>
      if takesLength front.length back.length rest.isSome items.length then
        let (first, middle, last) := cutEnds front.length back.length items
        ((extendEach? front first captures).bind (extendEach? back last)).bind
          (extendRest? rest (.seq middle))
      else none
    | _ => none
  | .chars front rest back, term, captures =>
    match decls.resolve term with
    | .text s =>
      if takesLength front.length back.length rest.isSome s.length then
        let (first, middle, last) := cutChars front.length back.length s
        ((extendEach? front (first.map .ofChar) captures).bind
          (extendEach? back (last.map .ofChar))).bind
          (extendRest? rest (.text middle))
      else none
    | _ => none
  | .text segments, term, captures =>
    match decls.resolve term with
    | .text s =>
      (Segment.cut? segments s).bind fun runs =>
        runs.foldlM (fun captures (name, run) => captures.bind? name (.text run)) captures
    | _ => none
  | .composite fields, term, captures =>
    match decls.resolve term with
    | .composite entries => extendFields? fields entries captures
    | _ => none
  | .apply head args, term, captures =>
    match decls.resolve term with
    | .apply actual items =>
      if actual = head && items.length = args.length then extendEach? args items captures
      else none
    | _ => none
  | .function k receiver params result, term, captures =>
    match decls.resolve term with
    | .function actual given items value =>
      if actual = k then
        ((extendRest? receiver (given.getD .unknown) captures).bind
          (extend? params (.seq items))).bind (extend? result value)
      else none
    | _ => none
termination_by structural pattern => pattern

/-- Matches patterns against terms, position by position. -/
def extendEach? : List Pattern → List Term → Captures → Option Captures
  | pattern :: patterns, term :: terms, captures =>
    (extend? pattern term captures).bind (extendEach? patterns terms)
  | _, _, captures => some captures
termination_by structural patterns => patterns

/-- Matches a term against a pattern, if there is one. -/
def extendRest? : Option Pattern → Term → Captures → Option Captures
  | none, _, captures => some captures
  | some pattern, term, captures => extend? pattern term captures
termination_by structural pattern => pattern

/-- Matches a term against the first alternative that takes it. -/
def extendFirst? : List Pattern → Term → Captures → Option Captures
  | [], _, _ => none
  | pattern :: patterns, term, captures =>
    match extend? pattern term captures with
    | some extended => some extended
    | none => extendFirst? patterns term captures
termination_by structural patterns => patterns

/-- Matches field patterns against the fields under their keys. -/
def extendFields? : List (FieldPattern Pattern) → Composite → Captures → Option Captures
  | [], _, captures => some captures
  | ⟨key, presence, value⟩ :: fields, entries, captures =>
    match presence.select? (entries.get? key) with
    | some term => (extend? value term captures).bind (extendFields? fields entries)
    | none => none
termination_by structural fields => fields

end

/-- The captures of a match, if the term matches the pattern. -/
def captures? (pattern : Pattern) (term : Term) : Option Captures :=
  extend? decls pattern term ∅

end Pattern

end Reshape
