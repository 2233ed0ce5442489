import Reshape.Assignable
import Reshape.Expect
import Reshape.Template.Plan

/-!
# Building terms from templates

A template is evaluated from left to right over a set of captures, to a plan for
the term it describes. Where it needs a sequence, a text or a composite,
references are resolved first, and a term of another kind is a failure.
-/

namespace Reshape

/-- Maps one field of a composite and puts what it becomes into the fields mapped
so far. The field's key and value are bound on top of the outer captures. -/
def mapField (decls : Declarations) (filter : Captures → Plan Bool)
    (key : Captures → Plan (Option Term)) (value : Captures → Plan Term)
    (readonly optional : FlagEdit) (captures : Captures) (mapped : Composite)
    (field : Entry Term) : Plan Composite := do
  let captures := captures.forField field.key field.value
  if ← filter captures then
    let built ← key captures
    match ← Plan.lift (Term.needKey field.key (built.map decls.resolve)) with
    | none => return mapped
    | some newKey =>
      let newValue ← value captures
      let modifiers := ⟨readonly.apply field.modifiers.readonly,
        optional.apply field.modifiers.optional⟩
      return Composite.insert ⟨newKey, newValue, modifiers⟩ mapped
  else return mapped

/-- Two lists of terms, one after the other. The first is not copied if the second
is empty. -/
def joinItems (items rest : List Term) : List Term :=
  if rest.isEmpty then items else items ++ rest

@[simp]
theorem joinItems_eq (items rest : List Term) : joinItems items rest = items ++ rest := by
  cases rest <;> simp [joinItems]

variable (decls : Declarations)

mutual

/-- Builds the term that a template describes. -/
def Template.build : Template → Captures → Plan Term
  | .capture name, captures => Plan.lift (captures.lookup name)
  | .literal term, _ => pure term
  | .seq items, captures => do
    return .seq (← Template.buildItems items captures)
  | .text pieces, captures => do
    return .text (← Template.buildPieces pieces captures)
  | .recase op inner, captures => do
    let term ← inner.build captures
    let s ← Plan.lift (decls.resolve term).needText
    return .text (op.apply s)
  | .length inner, captures => do
    let term ← inner.build captures
    Plan.lift (decls.resolve term).needLength
  | .apply head args, captures => do
    return .apply head (← Template.buildAll args captures)
  | .function kind receiver params result, captures => do
    let receiver ← Template.buildOption receiver captures
    let params ← params.build captures
    let params ← Plan.lift (decls.resolve params).needSeq
    let result ← result.build captures
    return .function kind receiver params result
  | .mapFields source key filter value readonly optional, captures => do
    let source ← source.build captures
    let fields ← Plan.lift (decls.resolve source).needComposite
    let mapped ← fields.foldlM
      (mapField decls (Guard.holdsIfAny filter) (Template.buildOption key) value.build
        readonly optional captures) []
    return .composite mapped
  | .reduce inner, captures => do
    let term ← inner.build captures
    .ask (.self term) pure
  | .call rule inner, captures => do
    let term ← inner.build captures
    .ask (.call rule term) pure
  | .undefined reason, _ => .fail ⟨.undefinedArithmetic reason, []⟩
termination_by structural template => template

/-- Builds the elements of a sequence. -/
def Template.buildItems : List (SeqItem Template) → Captures → Plan (List Term)
  | [], _ => pure []
  | .element template :: rest, captures => do
    let term ← template.build captures
    return term :: (← Template.buildItems rest captures)
  | .splice template :: rest, captures => do
    let term ← template.build captures
    let items ← Plan.lift (decls.resolve term).needSeq
    return joinItems items (← Template.buildItems rest captures)
termination_by structural items => items

/-- Builds a text from its pieces. -/
def Template.buildPieces : List (TextPiece Template) → Captures → Plan String
  | [], _ => pure ""
  | .literal s :: rest, captures => do
    return s ++ (← Template.buildPieces rest captures)
  | .insert template :: rest, captures => do
    let term ← template.build captures
    let s ← Plan.lift (decls.resolve term).needFragment
    return s ++ (← Template.buildPieces rest captures)
termination_by structural pieces => pieces

/-- Builds terms in order. -/
def Template.buildAll : List Template → Captures → Plan (List Term)
  | [], _ => pure []
  | template :: rest, captures => do
    let term ← template.build captures
    return term :: (← Template.buildAll rest captures)
termination_by structural templates => templates

/-- Builds a term if there is a template for it. -/
def Template.buildOption : Option Template → Captures → Plan (Option Term)
  | none, _ => pure none
  | some template, captures => do
    return some (← template.build captures)
termination_by structural template => template

/-- Whether a guard holds. -/
def Guard.holds : Guard → Captures → Plan Bool
  | .equal left right, captures => do
    let left ← left.build captures
    let right ← right.build captures
    return decls.equivalent left right
  | .fits sub sup, captures => do
    let sub ← sub.build captures
    let sup ← sup.build captures
    return decls.assignable sub sup
  | .negation inner, captures => do
    return !(← inner.holds captures)
  | .all guards, captures => Guard.allHold guards captures
termination_by structural guard => guard

/-- Whether all guards hold; those after the first that does not are not
evaluated. -/
def Guard.allHold : List Guard → Captures → Plan Bool
  | [], _ => pure true
  | guard :: rest, captures => do
    if ← guard.holds captures then Guard.allHold rest captures else return false
termination_by structural guards => guards

/-- Whether a guard holds, if there is one. -/
def Guard.holdsIfAny : Option Guard → Captures → Plan Bool
  | none, _ => pure true
  | some guard, captures => guard.holds captures
termination_by structural guard => guard

end

end Reshape
