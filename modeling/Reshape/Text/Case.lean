import Reshape.Text.CaseTable
import Reshape.Text.Properties

/-!
# Case transforms of a text

Upper and lower case of whole texts, and of the first character alone. A
character may have several characters as its image (`ß` becomes `SS`), and a
capital sigma in lower case depends on its surroundings: it is `ς` at the end
of a word and `σ` elsewhere (`endsWord`).
-/

namespace Reshape

namespace Text

/-- The image of a character under special images, else under runs, else the
character itself. -/
def mapChar (specials : List (Nat × List Nat)) (runs : List CaseRun) (c : Char) : List Char :=
  match specials.lookup c.toNat with
  | some image => image.map Char.ofNat
  | none =>
    match runs.find? (·.covers c.toNat) with
    | some run => [Char.ofNat (run.map c.toNat)]
    | none => [c]

/-- The upper-case form of one character. -/
def upperChar (c : Char) : List Char :=
  if c.toNat < 0x80 then [c.toUpper] else mapChar upperSpecials upperRuns c

/-- The lower-case form of one character by itself. -/
def lowerChar (c : Char) : List Char :=
  if c.toNat < 0x80 then [c.toLower] else mapChar lowerSpecials lowerRuns c

/-- Whether the first character that is not case-ignorable is cased. -/
def reachesCased (s : List Char) : Bool :=
  ((s.dropWhile caseIgnorableRanges.contains).head?).any casedRanges.contains

/-- Whether a letter with `before` (nearest character first) and `after` around
it ends a word: something cased stands before it and nothing cased after it. -/
def endsWord (before after : List Char) : Bool :=
  reachesCased before && !reachesCased after

/-- Lower case from a point inside a text on; `before` holds the characters
already passed, the nearest first. -/
def lowerFrom (before : List Char) : List Char → List Char
  | [] => []
  | c :: after =>
    let image :=
      if c = 'Σ' then [if endsWord before after then 'ς' else 'σ'] else lowerChar c
    image ++ lowerFrom (c :: before) after

def upper (s : List Char) : List Char := s.flatMap upperChar

def lower (s : List Char) : List Char := lowerFrom [] s

/-- A text with an image in place of its first character. -/
def mapFirst (image : Char → List Char) (s : String) : String :=
  String.ofList ((s.take 1).copy.toList.flatMap image) ++ (s.drop 1).copy

theorem toList_mapFirst (image : Char → List Char) (s : String) :
    (mapFirst image s).toList = (s.toList.take 1).flatMap image ++ s.toList.drop 1 := by
  simp [mapFirst]

end Text

/-- The case transforms that a template may ask for. The last two change the first
character and leave the others. -/
inductive CaseOp where
  | upper
  | lower
  | capitalize
  | uncapitalize
  deriving DecidableEq, Repr

def CaseOp.apply (op : CaseOp) (text : String) : String :=
  match op with
  | upper => String.ofList (Text.upper text.toList)
  | lower => String.ofList (Text.lower text.toList)
  | capitalize => Text.mapFirst Text.upperChar text
  | uncapitalize => Text.mapFirst Text.lowerChar text

end Reshape
