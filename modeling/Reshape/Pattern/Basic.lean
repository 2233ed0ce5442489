import Reshape.Term.Basic

/-!
# Patterns

A pattern says how to take a term apart and which parts to capture. Patterns
nest: the elements at the front and the back of a sequence, the run between
them, a field's value and a signature's parts are matched by patterns again.
-/

namespace Reshape

/-- A piece of a text pattern: one of several literals, tried in order, or a run
of characters, captured if it has a name. -/
inductive Segment where
  | literal (alternatives : List String)
  | run (name : Option String)
  deriving DecidableEq, Repr

/-- Which declarations of a key a field pattern accepts. A field that may be
absent is matched as `unknown` when it is. -/
inductive Presence where
  | required
  | declared
  | maybeAbsent
  deriving DecidableEq, Repr

/-- What is asked of one field of a composite. -/
structure FieldPattern (α : Type) where
  key : String
  presence : Presence
  value : α

/-- Ways to take a term apart.

`seq` and `chars` match `front` against the first elements, `back` against the
last ones and `rest` against the run between them; without `rest` there must be
nothing in between. For `chars` the elements are the characters of a text. -/
inductive Pattern where
  | any
  | bind (name : String)
  | named (name : String) (inner : Pattern)
  | literal (term : Term)
  | kind (kind : Term.Kind)
  | fits (target : Term)
  | alt (alternatives : List Pattern)
  | seq (front : List Pattern) (rest : Option Pattern) (back : List Pattern)
  | chars (front : List Pattern) (rest : Option Pattern) (back : List Pattern)
  | text (segments : List Segment)
  | composite (fields : List (FieldPattern Pattern))
  | apply (head : String) (args : List Pattern)
  | function (kind : SignatureKind) (receiver : Option Pattern) (params result : Pattern)

namespace Pattern

instance : Inhabited Pattern := ⟨.any⟩

/-- A first element and the elements after it. -/
def head (first rest : Pattern) : Pattern := .seq [first] (some rest) []

/-- The elements before the last one, and the last one. -/
def tail (init last : Pattern) : Pattern := .seq [] (some init) [last]

/-- Elements at both ends and the run between them. -/
def slice (front : List Pattern) (middle : Pattern) (back : List Pattern) : Pattern :=
  .seq front (some middle) back

/-- A sequence of exactly these elements. -/
def tuple (items : List Pattern) : Pattern := .seq items none []

/-- The first character of a text and the text after it. -/
def firstChar (first rest : Pattern) : Pattern := .chars [first] (some rest) []

/-- The text before the last character, and the last character. -/
def lastChar (init last : Pattern) : Pattern := .chars [] (some init) [last]

/-- The least number of elements that a sequence or text pattern asks for. -/
def anchors? : Pattern → Option Nat
  | .seq front _ back | .chars front _ back => some (front.length + back.length)
  | _ => none

mutual

/-- The names that every successful match binds. Of an alternation only the
names that all alternatives bind count. -/
def binders : Pattern → List String
  | .any => []
  | .bind name => [name]
  | .named name inner => name :: binders inner
  | .literal _ => []
  | .kind _ => []
  | .fits _ => []
  | .alt alternatives => commonBinders alternatives
  | .seq front rest back =>
    bindersAll front ++ bindersOption rest ++ bindersAll back
  | .chars front rest back =>
    bindersAll front ++ bindersOption rest ++ bindersAll back
  | .text segments =>
    segments.filterMap fun
      | .run name => name
      | .literal _ => none
  | .composite fields => bindersFields fields
  | .apply _ args => bindersAll args
  | .function _ receiver params result =>
    bindersOption receiver ++ binders params ++ binders result

/-- The names bound by a list of patterns that must all match. -/
def bindersAll : List Pattern → List String
  | [] => []
  | pattern :: rest => binders pattern ++ bindersAll rest

/-- The names bound by a pattern that may be missing. -/
def bindersOption : Option Pattern → List String
  | none => []
  | some pattern => binders pattern

/-- The names bound by the patterns of fields. -/
def bindersFields : List (FieldPattern Pattern) → List String
  | [] => []
  | ⟨_, _, value⟩ :: rest => binders value ++ bindersFields rest

/-- The names that all patterns of a list bind. -/
def commonBinders : List Pattern → List String
  | [] => []
  | [pattern] => binders pattern
  | pattern :: rest => (binders pattern).filter (commonBinders rest).contains

end

end Pattern

end Reshape
