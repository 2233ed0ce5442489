import Reshape.Pattern.Basic
import Reshape.Text.Affix

/-!
# Cutting a text along segments

A text pattern cuts a text into consecutive pieces, one for each segment, from
left to right:

* a literal stands at the start of what is left, the alternatives in order;
* a run in front of another run takes exactly one character;
* a run in front of the last literal leaves that literal at the very end;
* a run in front of any other literal stops at its leftmost occurrence;
* a last run takes all that is left.

Alternatives of literals are tried until the rest can be cut as well. A run does
not move on to a later occurrence of the literal after it.
-/

namespace Reshape

/-- The runs that a cut captures, in order. -/
abbrev CutRuns := List (String × String)

namespace Segment

/-- The captured runs with one more in front, if it has a name. -/
def record (name : Option String) (piece : String) (found : CutRuns) : CutRuns :=
  match name with
  | some name => (name, piece) :: found
  | none => found

/-- What stands before and after a literal that ends a run. -/
def stopAt? (isLast : Bool) (literal text : String) : Option (String × String) :=
  if isLast then (Text.beforeEnd? literal text).map fun piece => (piece, "")
  else Text.aroundFirst? literal text

/-- The captured runs of the first cut of a text along segments. -/
def cut? : List Segment → String → Option CutRuns
  | [], text => if text.isEmpty then some [] else none
  | .literal alternatives :: segments, text =>
    alternatives.findSome? fun literal =>
      match Text.afterStart? literal text with
      | some after => cut? segments after
      | none => none
  | [.run name], text => some (record name text [])
  | .run name :: .run next :: segments, text =>
    if text.isEmpty then none
    else (cut? (.run next :: segments) (text.drop 1).copy).map (record name (text.take 1).copy)
  | .run name :: .literal alternatives :: segments, text =>
    alternatives.findSome? fun literal =>
      match stopAt? segments.isEmpty literal text with
      | some (piece, after) => (cut? segments after).map (record name piece)
      | none => none
termination_by structural segments => segments

end Segment

end Reshape
