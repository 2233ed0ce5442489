import Reshape.Term.Basic

/-!
# Digests

A digest is a number computed from all parts of a term, so that terms can be
sorted into small buckets before they are compared. Fields of a composite are
added up, since their order does not count for equality: equal terms with
distinct keys have equal digests, and unequal ones rarely do.
-/

namespace Reshape

namespace Digest

/-- Digests are smaller than this. -/
def modulus : Nat := 2147483647

/-- A digest with one more number worked into it. -/
def mix (digest n : Nat) : Nat := (digest * 1000003 + n) % modulus

/-- A digest with a text worked into it. -/
def mixText (digest : Nat) (s : String) : Nat := s.foldl (fun d c => mix d c.toNat) digest

end Digest

open Digest

def Prim.digest (p : Prim) : Nat := p.ctorIdx

def Atom.digest : Atom → Nat
  | int value => mix 1 value.toUInt64.toNat
  | bool value => mix 2 value.toNat
  | prim p => mix 3 p.digest
  | token name => mixText 4 name

def Modifiers.digest (modifiers : Modifiers) : Nat :=
  modifiers.readonly.toNat + 2 * modifiers.optional.toNat

namespace Term

mutual

def digest : Term → Nat
  | .seq items => digestAll 11 items
  | .text s => mixText 12 s
  | .composite entries => mix 13 (digestEntries entries)
  | .atom value => mix 14 value.digest
  | .apply head args => digestAll (mixText 15 head) args
  | .function kind receiver params result =>
    mix (digestAll (mix (16 + kind.ctorIdx) (digestOption receiver)) params) (digest result)
  | .ref name => mixText 18 name
termination_by structural term => term

/-- A digest with a list of terms worked into it, one after another. -/
def digestAll (start : Nat) : List Term → Nat
  | [] => start
  | item :: rest => digestAll (mix start (digest item)) rest
termination_by structural items => items

/-- The digests of fields, added up. -/
def digestEntries : List (Entry Term) → Nat
  | [] => 0
  | ⟨key, value, modifiers⟩ :: rest =>
    mix (mix (mixText 19 key) modifiers.digest) (digest value) + digestEntries rest
termination_by structural entries => entries

def digestOption : Option Term → Nat
  | none => 0
  | some term => 1 + digest term
termination_by structural term => term

end

end Term

end Reshape
