import Reshape.Term.Composite

/-!
# Equality of terms

Two terms are equal when they have the same shape and equal parts, where the
fields of composites may stand in any order. Since keys are distinct, it is
enough that both composites have the same number of fields and that every field
of the first has an equal one under its key in the second.
-/

namespace Reshape.Term

mutual

/-- Equality up to the order of fields. -/
def beq : Term → Term → Bool
  | .seq xs, .seq ys => beqAll xs ys
  | .text s, .text t => s == t
  | .composite xs, .composite ys => xs.length == ys.length && beqEntries xs ys
  | .atom a, .atom b => a == b
  | .apply f xs, .apply g ys => f == g && beqAll xs ys
  | .function k r ps t, .function k' r' ps' t' =>
    k == k' && beqOption r r' && beqAll ps ps' && beq t t'
  | .ref a, .ref b => a == b
  | _, _ => false
termination_by structural x => x

/-- Equality of lists, position by position. -/
def beqAll : List Term → List Term → Bool
  | [], [] => true
  | x :: xs, y :: ys => beq x y && beqAll xs ys
  | _, _ => false
termination_by structural x => x

/-- Whether each field has an equal one under its key in the other composite. -/
def beqEntries : List (Entry Term) → Composite → Bool
  | [], _ => true
  | ⟨key, value, modifiers⟩ :: rest, fields =>
    (match fields.get? key with
      | some field => beq value field.value && modifiers == field.modifiers
      | none => false) && beqEntries rest fields
termination_by structural x => x

/-- Equality of terms that may be missing. -/
def beqOption : Option Term → Option Term → Bool
  | none, none => true
  | some x, some y => beq x y
  | _, _ => false
termination_by structural x => x

end

instance : BEq Term := ⟨beq⟩

end Reshape.Term
