import Reshape.Term.Basic
import Reshape.Text.Properties

/-!
# The written form of a term

Terms are written the way type expressions are: `[a, b]` for a sequence,
`{ readonly key?: value; ... }` for a composite, `head<a, b>` for an application
and `new (this: receiver, a) => result` for a signature.

A text is written between double quotes, with escapes for the quote, the backslash and
characters without a shape of their own. The single quote needs no escape.
-/

namespace Reshape

namespace Text

/-- `\u` with the scalar value in braces, in lower-case hexadecimal without
leading zeros. -/
def unicodeEscape (c : Char) : List Char :=
  ['\\', 'u', '{'] ++ Nat.toDigits 16 c.toNat ++ ['}']

/-- Whether a character has a shape of its own. -/
def isShown (c : Char) : Bool :=
  !(extendingMarkRanges.contains c || defaultIgnorableRanges.contains c ||
    unprintableRanges.contains c)

/-- How a character is written between double quotes. -/
def quoteChar (c : Char) : List Char :=
  if c = '\x00' then ['\\', '0']
  else if c = '\t' then ['\\', 't']
  else if c = '\r' then ['\\', 'r']
  else if c = '\n' then ['\\', 'n']
  else if c = '"' || c = '\\' then ['\\', c]
  else if isShown c then [c]
  else unicodeEscape c

/-- A text between double quotes, with its special characters escaped. -/
def quote (text : String) : String :=
  String.ofList ('"' :: text.toList.flatMap quoteChar ++ ['"'])

end Text

def Atom.display : Atom → String
  | .int value => toString value.toInt
  | .bool true => "true"
  | .bool false => "false"
  | .prim p => p.name
  | .token name => name

/-- A field's flags around its key: `readonly` in front, `?` behind. -/
def Modifiers.label (modifiers : Modifiers) (key : String) : String :=
  (if modifiers.readonly then "readonly " else "") ++ key ++
    (if modifiers.optional then "?" else "")

namespace Term

mutual

/-- The written form of a term. -/
def display : Term → String
  | .seq items => "[" ++ ", ".intercalate (displayAll items) ++ "]"
  | .text s => Text.quote s
  | .composite [] => "\x7b\x7d"
  | .composite (field :: fields) =>
    "\x7b " ++ "; ".intercalate (displayEntries (field :: fields)) ++ " \x7d"
  | .atom a => a.display
  | .apply head args => head ++ "<" ++ ", ".intercalate (displayAll args) ++ ">"
  | .function kind receiver params result =>
    (if kind = .construct then "new (" else "(") ++
      ", ".intercalate (displayReceiver receiver ++ displayAll params) ++
      ") => " ++ display result
  | .ref name => name

/-- The written forms of a list of terms. -/
def displayAll : List Term → List String
  | [] => []
  | item :: rest => display item :: displayAll rest

/-- The written forms of fields. -/
def displayEntries : List (Entry Term) → List String
  | [] => []
  | ⟨key, value, modifiers⟩ :: rest =>
    (modifiers.label key ++ ": " ++ display value) :: displayEntries rest

/-- A receiver is written as a first parameter named `this`. -/
def displayReceiver : Option Term → List String
  | none => []
  | some receiver => ["this: " ++ display receiver]

end

end Term

end Reshape
