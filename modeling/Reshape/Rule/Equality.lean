import Reshape.Pattern.Equality
import Reshape.Rule.Basic

/-!
# Equality of rules

Rules are equal when they are built alike from equal parts, arms included; two
rules with one name and different arms differ. The terms inside them compare as
terms do, with composite fields in any order.
-/

namespace Reshape

def Terminal.beq : Terminal → Terminal → Bool
  | .input, .input => true
  | .term s, .term t => s == t
  | .unmatched, .unmatched => true
  | .undefined r, .undefined r' => r == r'
  | _, _ => false

instance : BEq Terminal := ⟨Terminal.beq⟩

mutual

/-- Equality of templates. -/
def Template.beq : Template → Template → Bool
  | .capture a, .capture b => a == b
  | .literal s, .literal t => s == t
  | .seq xs, .seq ys => Template.beqItems xs ys
  | .text xs, .text ys => Template.beqPieces xs ys
  | .recase op x, .recase op' y => op == op' && x.beq y
  | .length x, .length y => x.beq y
  | .apply f xs, .apply g ys => f == g && Template.beqAll xs ys
  | .function k r p t, .function k' r' p' t' =>
    k == k' && Template.beqOption r r' && p.beq p' && t.beq t'
  | .mapFields s k f v ro op, .mapFields s' k' f' v' ro' op' =>
    s.beq s' && Template.beqOption k k' && Guard.beqOption f f' && v.beq v' &&
      ro == ro' && op == op'
  | .reduce x, .reduce y => x.beq y
  | .call r x, .call r' y => r.beq r' && x.beq y
  | .undefined r, .undefined r' => r == r'
  | _, _ => false
termination_by structural x => x

/-- Equality of the items of sequence templates. -/
def Template.beqItems : List (SeqItem Template) → List (SeqItem Template) → Bool
  | [], [] => true
  | .element x :: xs, .element y :: ys => x.beq y && Template.beqItems xs ys
  | .splice x :: xs, .splice y :: ys => x.beq y && Template.beqItems xs ys
  | _, _ => false
termination_by structural xs => xs

/-- Equality of the pieces of text templates. -/
def Template.beqPieces : List (TextPiece Template) → List (TextPiece Template) → Bool
  | [], [] => true
  | .literal s :: xs, .literal t :: ys => s == t && Template.beqPieces xs ys
  | .insert x :: xs, .insert y :: ys => x.beq y && Template.beqPieces xs ys
  | _, _ => false
termination_by structural xs => xs

/-- Equality of lists of templates, position by position. -/
def Template.beqAll : List Template → List Template → Bool
  | [], [] => true
  | x :: xs, y :: ys => x.beq y && Template.beqAll xs ys
  | _, _ => false
termination_by structural xs => xs

/-- Equality of templates that may be missing. -/
def Template.beqOption : Option Template → Option Template → Bool
  | none, none => true
  | some x, some y => x.beq y
  | _, _ => false
termination_by structural x => x

/-- Equality of guards. -/
def Guard.beq : Guard → Guard → Bool
  | .equal a b, .equal a' b' => a.beq a' && b.beq b'
  | .fits a b, .fits a' b' => a.beq a' && b.beq b'
  | .negation g, .negation h => g.beq h
  | .all gs, .all hs => Guard.beqAll gs hs
  | _, _ => false
termination_by structural g => g

/-- Equality of lists of guards, position by position. -/
def Guard.beqAll : List Guard → List Guard → Bool
  | [], [] => true
  | g :: gs, h :: hs => g.beq h && Guard.beqAll gs hs
  | _, _ => false
termination_by structural gs => gs

/-- Equality of guards that may be missing. -/
def Guard.beqOption : Option Guard → Option Guard → Bool
  | none, none => true
  | some g, some h => g.beq h
  | _, _ => false
termination_by structural g => g

/-- Equality of arms. -/
def Arm.beq : Arm → Arm → Bool
  | ⟨pattern, guard, body⟩, other =>
    pattern == other.pattern && Guard.beqOption guard other.guard && body.beq other.body
termination_by structural arm => arm

/-- Equality of lists of arms, position by position. -/
def Arm.beqAll : List Arm → List Arm → Bool
  | [], [] => true
  | a :: as, b :: bs => a.beq b && Arm.beqAll as bs
  | _, _ => false
termination_by structural as => as

/-- Equality of rules. -/
def Rule.beq : Rule → Rule → Bool
  | ⟨name, arms, terminal, recursion⟩, other =>
    name == other.name && Arm.beqAll arms other.arms && terminal == other.terminal &&
      recursion == other.recursion
termination_by structural rule => rule

end

instance : BEq Template := ⟨Template.beq⟩

instance : BEq Guard := ⟨Guard.beq⟩

instance : BEq Rule := ⟨Rule.beq⟩

end Reshape
