import Reshape.Captures
import Reshape.Pattern.Basic
import Reshape.Text.Case

/-!
# Rules

A rule is a named list of arms. An arm is a pattern, perhaps a guard, and a
template that builds a term from the captures of a match. The first arm whose
pattern matches and whose guard holds gives the result; if there is none, the
rule's terminal does.

Two templates run rules again: `reduce` feeds a term back into the rule around
it, and `call` hands a term to another rule, which is a part of the template. So
templates, guards, arms and rules are defined together.
-/

namespace Reshape

/-- An item of a sequence template: one element, or all elements of a sequence
in a row. -/
inductive SeqItem (α : Type) where
  | element (template : α)
  | splice (template : α)
  deriving DecidableEq

/-- A piece of a text template: a literal, or a built text, number or boolean. -/
inductive TextPiece (α : Type) where
  | literal (text : String)
  | insert (template : α)
  deriving DecidableEq

/-- What happens to a flag while fields are mapped. -/
inductive FlagEdit where
  | keep
  | add
  | remove
  deriving DecidableEq, Repr, Inhabited

def FlagEdit.apply : FlagEdit → Bool → Bool
  | keep, flag => flag
  | add, _ => true
  | remove, _ => false

/-- What a rule gives when no arm applies: its input, a fixed term, `never`, or
an undefined result with a reason. -/
inductive Terminal where
  | input
  | term (result : Term)
  | unmatched
  | undefined (reason : String)

instance : Inhabited Terminal := ⟨.input⟩

/-- How a rule may re-enter itself: not at all, only with terms smaller than its
input, or freely, so that nothing but the limits of the reduction stops it. -/
inductive Recursion where
  | forbidden
  | shrinking
  | bounded
  deriving DecidableEq, Repr, Inhabited

mutual

/-- An expression that builds a term from captures.

`mapFields` rebuilds a composite field by field, with the key and the value
bound as captures: a field stays if the filter holds, under the key that the key
template builds, unless that is `never`. -/
inductive Template where
  | capture (name : String)
  | literal (term : Term)
  | seq (items : List (SeqItem Template))
  | text (pieces : List (TextPiece Template))
  | recase (op : CaseOp) (inner : Template)
  | length (inner : Template)
  | apply (head : String) (args : List Template)
  | function (kind : SignatureKind) (receiver : Option Template) (params result : Template)
  | mapFields (source : Template) (key : Option Template) (filter : Option Guard)
      (value : Template) (readonly optional : FlagEdit)
  | reduce (inner : Template)
  | call (rule : Rule) (inner : Template)
  | undefined (reason : String)

/-- A condition on built terms: two terms that fit each other, or one that fits
the other. -/
inductive Guard where
  | equal (left right : Template)
  | fits (sub sup : Template)
  | negation (inner : Guard)
  | all (guards : List Guard)

/-- One case of a rule. -/
structure Arm where
  pattern : Pattern
  guard : Option Guard := none
  body : Template

/-- A named list of arms, with what happens when none applies and how the rule
may re-enter itself. -/
structure Rule where
  name : String
  arms : List Arm
  terminal : Terminal := .input
  recursion : Recursion := .forbidden

end

instance : Inhabited Template := ⟨.undefined ""⟩

instance : Inhabited Guard := ⟨.all []⟩

instance : Inhabited Rule := ⟨⟨"", [], .input, .forbidden⟩⟩

mutual

/-- Whether building the template re-enters the rule around it. The arms of a
called rule do not count: they re-enter that rule. -/
def Template.reenters : Template → Bool
  | .capture _ => false
  | .literal _ => false
  | .seq items => Template.reentersItems items
  | .text pieces => Template.reentersPieces pieces
  | .recase _ inner => inner.reenters
  | .length inner => inner.reenters
  | .apply _ args => Template.reentersAny args
  | .function _ receiver params result =>
    Template.reentersOption receiver || params.reenters || result.reenters
  | .mapFields source key filter value _ _ =>
    source.reenters || Template.reentersOption key || Guard.reentersOption filter ||
      value.reenters
  | .reduce _ => true
  | .call _ inner => inner.reenters
  | .undefined _ => false

/-- Whether one of the items re-enters the rule. -/
def Template.reentersItems : List (SeqItem Template) → Bool
  | [] => false
  | .element template :: rest => template.reenters || Template.reentersItems rest
  | .splice template :: rest => template.reenters || Template.reentersItems rest

/-- Whether one of the pieces re-enters the rule. -/
def Template.reentersPieces : List (TextPiece Template) → Bool
  | [] => false
  | .literal _ :: rest => Template.reentersPieces rest
  | .insert template :: rest => template.reenters || Template.reentersPieces rest

/-- Whether one of the templates re-enters the rule. -/
def Template.reentersAny : List Template → Bool
  | [] => false
  | template :: rest => template.reenters || Template.reentersAny rest

/-- Whether a template that may be missing re-enters the rule. -/
def Template.reentersOption : Option Template → Bool
  | none => false
  | some template => template.reenters

/-- Whether checking the guard re-enters the rule around it. -/
def Guard.reenters : Guard → Bool
  | .equal left right => left.reenters || right.reenters
  | .fits sub sup => sub.reenters || sup.reenters
  | .negation inner => inner.reenters
  | .all guards => Guard.reentersAny guards

/-- Whether one of the guards re-enters the rule. -/
def Guard.reentersAny : List Guard → Bool
  | [] => false
  | guard :: rest => guard.reenters || Guard.reentersAny rest

/-- Whether a guard that may be missing re-enters the rule. -/
def Guard.reentersOption : Option Guard → Bool
  | none => false
  | some guard => guard.reenters

end

/-- Whether the arm re-enters its rule. -/
def Arm.reenters (arm : Arm) : Bool :=
  arm.body.reenters || Guard.reentersOption arm.guard

/-- Whether some arm re-enters the rule. -/
def Rule.isRecursive (rule : Rule) : Bool := rule.arms.any Arm.reenters

end Reshape
