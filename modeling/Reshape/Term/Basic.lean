/-!
# Terms

A term is a finite tree that stands for a type or a value: sequences, texts,
composites of named fields, atoms, applications such as `Promise<number>`, call
and construct signatures, and references to shapes declared elsewhere. Terms
are the only data that rules take apart and put together.

A text counts as a sequence of one-character texts, in its length and in its
size. `Term.size` counts nodes; recursive rules that promise to shrink their
input are measured by it.
-/

namespace Reshape

/-- The built-in type keywords. Everything fits `unknown`, and `never` fits
everything. -/
inductive Prim where
  | string
  | number
  | boolean
  | unknown
  | never
  | undefined
  | void
  deriving DecidableEq, Repr, Inhabited

def Prim.name : Prim → String
  | string => "string"
  | number => "number"
  | boolean => "boolean"
  | unknown => "unknown"
  | never => "never"
  | undefined => "undefined"
  | void => "void"

/-- Values without parts. A token is a name with no visible structure, for
instance a class type known by its name alone. -/
inductive Atom where
  | int (value : Int64)
  | bool (value : Bool)
  | prim (prim : Prim)
  | token (name : String)
  deriving DecidableEq

/-- The flags of a composite's field. -/
structure Modifiers where
  readonly : Bool := false
  optional : Bool := false
  deriving DecidableEq, Repr, Inhabited

/-- A field of a composite: a key, what stands under it, and its flags. -/
structure Entry (α : Type) where
  key : String
  value : α
  modifiers : Modifiers := {}

/-- Whether a signature is called or constructed with `new`. -/
inductive SignatureKind where
  | call
  | construct
  deriving DecidableEq, Repr, Inhabited

/-- The data that rules work on. A reference is the only way for a term to
reach itself, through a table of declarations. -/
inductive Term where
  | seq (items : List Term)
  | text (content : String)
  | composite (entries : List (Entry Term))
  | atom (value : Atom)
  | apply (head : String) (args : List Term)
  | function (kind : SignatureKind) (receiver : Option Term) (params : List Term) (result : Term)
  | ref (name : String)

namespace Term

instance : Inhabited Term := ⟨.seq []⟩

def int (value : Int64) : Term := .atom (.int value)

def bool (value : Bool) : Term := .atom (.bool value)

def prim (p : Prim) : Term := .atom (.prim p)

def never : Term := prim .never

def unknown : Term := prim .unknown

/-- A count as an integer atom. Counts past the largest integer become that
integer. -/
def count (n : Nat) : Term := int (Int64.ofNat (min n Int64.maxValue.toInt.toNat))

/-- The number `n` as a sequence of `n` placeholders. -/
def unary (n : Nat) : Term := .seq (List.replicate n unknown)

/-- The sorts of terms, as patterns and error messages tell them apart. -/
inductive Kind where
  | seq
  | text
  | composite
  | atom
  | apply
  | function
  | ref
  deriving DecidableEq, Repr, Inhabited

def Kind.name : Kind → String
  | seq => "sequence"
  | text => "text"
  | composite => "composite"
  | atom => "atom"
  | apply => "application"
  | function => "function"
  | ref => "reference"

def kind : Term → Kind
  | .seq _ => .seq
  | .text _ => .text
  | .composite _ => .composite
  | .atom _ => .atom
  | .apply .. => .apply
  | .function .. => .function
  | .ref _ => .ref

def asSeq? : Term → Option (List Term)
  | .seq items => some items
  | _ => none

def asText? : Term → Option String
  | .text s => some s
  | _ => none

def asComposite? : Term → Option (List (Entry Term))
  | .composite entries => some entries
  | _ => none

def asInt? : Term → Option Int64
  | .atom (.int value) => some value
  | _ => none

def asBool? : Term → Option Bool
  | .atom (.bool value) => some value
  | _ => none

def isNever : Term → Bool
  | .atom (.prim .never) => true
  | _ => false

/-- How many elements a sequence has, or how many characters a text. -/
def length? : Term → Option Nat
  | .seq items => some items.length
  | .text s => some s.length
  | _ => none

/-- The terms directly below a term, from left to right; a signature's receiver
comes first and its result last. -/
def children : Term → List Term
  | .seq items => items
  | .composite entries => entries.map (·.value)
  | .apply _ args => args
  | .function _ receiver params result => receiver.toList ++ params ++ [result]
  | .text _ | .atom _ | .ref _ => []

mutual

/-- The number of nodes, with one node for each character of a text. -/
def size : Term → Nat
  | .seq items => 1 + sizeAll items
  | .text s => 1 + s.length
  | .composite entries => 1 + sizeEntries entries
  | .atom _ => 1
  | .apply _ args => 1 + sizeAll args
  | .function _ receiver params result =>
    1 + sizeOption receiver + sizeAll params + size result
  | .ref _ => 1

/-- The sizes of a list of terms, added up. -/
def sizeAll : List Term → Nat
  | [] => 0
  | item :: rest => size item + sizeAll rest

/-- The sizes of the values of fields, added up. -/
def sizeEntries : List (Entry Term) → Nat
  | [] => 0
  | ⟨_, value, _⟩ :: rest => size value + sizeEntries rest

/-- The size of a term that may be missing. -/
def sizeOption : Option Term → Nat
  | none => 0
  | some term => size term

end

mutual

/-- The names of all references inside a term, from left to right. -/
def refs : Term → List String
  | .seq items => refsAll items
  | .text _ => []
  | .composite entries => refsEntries entries
  | .atom _ => []
  | .apply _ args => refsAll args
  | .function _ receiver params result =>
    refsOption receiver ++ refsAll params ++ refs result
  | .ref name => [name]

/-- The references inside a list of terms. -/
def refsAll : List Term → List String
  | [] => []
  | item :: rest => refs item ++ refsAll rest

/-- The references inside the values of fields. -/
def refsEntries : List (Entry Term) → List String
  | [] => []
  | ⟨_, value, _⟩ :: rest => refs value ++ refsEntries rest

/-- The references inside a term that may be missing. -/
def refsOption : Option Term → List String
  | none => []
  | some term => refs term

end

end Term

end Reshape
