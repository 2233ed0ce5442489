import Reshape.Pattern.Basic
import Reshape.Term.Equality

/-!
# Equality of patterns

Patterns are equal when they are built alike from equal parts; the terms inside
them compare as terms do, with composite fields in any order.
-/

namespace Reshape.Pattern

mutual

/-- Equality of patterns. -/
def beq : Pattern → Pattern → Bool
  | .any, .any => true
  | .bind a, .bind b => a == b
  | .named a p, .named b q => a == b && beq p q
  | .literal s, .literal t => s == t
  | .kind k, .kind l => k == l
  | .fits s, .fits t => s == t
  | .alt ps, .alt qs => beqAll ps qs
  | .seq f r b, .seq f' r' b' => beqAll f f' && beqOption r r' && beqAll b b'
  | .chars f r b, .chars f' r' b' => beqAll f f' && beqOption r r' && beqAll b b'
  | .text s, .text t => s == t
  | .composite fs, .composite gs => beqFields fs gs
  | .apply f ps, .apply g qs => f == g && beqAll ps qs
  | .function k r p t, .function k' r' p' t' =>
    k == k' && beqOption r r' && beq p p' && beq t t'
  | _, _ => false
termination_by structural p => p

/-- Equality of lists of patterns, position by position. -/
def beqAll : List Pattern → List Pattern → Bool
  | [], [] => true
  | p :: ps, q :: qs => beq p q && beqAll ps qs
  | _, _ => false
termination_by structural ps => ps

/-- Equality of field patterns, position by position. -/
def beqFields : List (FieldPattern Pattern) → List (FieldPattern Pattern) → Bool
  | [], [] => true
  | ⟨key, presence, value⟩ :: fs, g :: gs =>
    key == g.key && presence == g.presence && beq value g.value && beqFields fs gs
  | _, _ => false
termination_by structural fs => fs

/-- Equality of patterns that may be missing. -/
def beqOption : Option Pattern → Option Pattern → Bool
  | none, none => true
  | some p, some q => beq p q
  | _, _ => false
termination_by structural p => p

end

instance : BEq Pattern := ⟨beq⟩

end Reshape.Pattern
