import Reshape.Rule.Validity

/-!
# The templates inside a rule

Templates nest, and a called rule is a part of the template that calls it, with
all its arms. `parts` lists every template in a template, a guard or a rule at
any depth, from the outside in, so what holds of all of them can be said of a
list; and a called rule has fewer parts than the template that calls it.
-/

namespace Reshape

mutual

/-- A template and all templates inside it. -/
def Template.parts : Template → List Template
  | .capture name => [.capture name]
  | .literal term => [.literal term]
  | .seq items => .seq items :: Template.partsItems items
  | .text pieces => .text pieces :: Template.partsPieces pieces
  | .recase op inner => .recase op inner :: inner.parts
  | .length inner => .length inner :: inner.parts
  | .apply head args => .apply head args :: Template.partsAll args
  | .function kind receiver params result =>
    .function kind receiver params result ::
      (Template.partsOption receiver ++ params.parts ++ result.parts)
  | .mapFields source key filter value readonly optional =>
    .mapFields source key filter value readonly optional ::
      (source.parts ++ Template.partsOption key ++ Guard.partsOption filter ++ value.parts)
  | .reduce inner => .reduce inner :: inner.parts
  | .call rule inner => .call rule inner :: (rule.parts ++ inner.parts)
  | .undefined reason => [.undefined reason]
termination_by structural template => template

/-- The templates inside the items of a sequence template. -/
def Template.partsItems : List (SeqItem Template) → List Template
  | [] => []
  | .element template :: rest => template.parts ++ Template.partsItems rest
  | .splice template :: rest => template.parts ++ Template.partsItems rest
termination_by structural items => items

/-- The templates inside the pieces of a text template. -/
def Template.partsPieces : List (TextPiece Template) → List Template
  | [] => []
  | .literal _ :: rest => Template.partsPieces rest
  | .insert template :: rest => template.parts ++ Template.partsPieces rest
termination_by structural pieces => pieces

/-- The templates inside a list of templates. -/
def Template.partsAll : List Template → List Template
  | [] => []
  | template :: rest => template.parts ++ Template.partsAll rest
termination_by structural templates => templates

/-- The templates inside a template that may be missing. -/
def Template.partsOption : Option Template → List Template
  | none => []
  | some template => template.parts
termination_by structural template => template

/-- The templates inside a guard. -/
def Guard.parts : Guard → List Template
  | .equal left right => left.parts ++ right.parts
  | .fits sub sup => sub.parts ++ sup.parts
  | .negation inner => inner.parts
  | .all guards => Guard.partsAll guards
termination_by structural guard => guard

/-- The templates inside a list of guards. -/
def Guard.partsAll : List Guard → List Template
  | [] => []
  | guard :: rest => guard.parts ++ Guard.partsAll rest
termination_by structural guards => guards

/-- The templates inside a guard that may be missing. -/
def Guard.partsOption : Option Guard → List Template
  | none => []
  | some guard => guard.parts
termination_by structural guard => guard

/-- The templates inside an arm. -/
def Arm.parts : Arm → List Template
  | ⟨_, guard, body⟩ => Guard.partsOption guard ++ body.parts
termination_by structural arm => arm

/-- The templates inside a list of arms. -/
def Arm.partsAll : List Arm → List Template
  | [] => []
  | arm :: rest => arm.parts ++ Arm.partsAll rest
termination_by structural arms => arms

/-- The templates inside the arms of a rule. -/
def Rule.parts : Rule → List Template
  | ⟨_, arms, _, _⟩ => Arm.partsAll arms
termination_by structural rule => rule

end

/-- The rule that a template calls, if it is a call. -/
def Template.callee? : Template → Option Rule
  | .call rule _ => some rule
  | _ => none

/-- The rules that are called anywhere inside a rule. -/
def Rule.callees (rule : Rule) : List Rule := rule.parts.filterMap Template.callee?

/-- A rule that is called inside a rule, and all that is inside it, stand in the rule. -/
def Rule.Inside (called : Rule) (parts : List Template) : Prop :=
  ∃ inner, (Template.call called inner :: called.parts).Sublist parts

theorem Rule.Inside.mono {called : Rule} {parts more : List Template} (h : called.Inside parts)
    (hmore : parts.Sublist more) : called.Inside more := by
  obtain ⟨inner, h⟩ := h
  exact ⟨inner, h.trans hmore⟩

theorem Rule.Inside.length_lt {called rule : Rule} (h : called.Inside rule.parts) :
    called.parts.length < rule.parts.length := by
  obtain ⟨inner, h⟩ := h
  exact h.length_le

theorem Rule.Inside.parts_subset {called rule : Rule} (h : called.Inside rule.parts) :
    called.parts ⊆ rule.parts := by
  obtain ⟨inner, h⟩ := h
  exact fun part hpart => h.subset (List.mem_cons_of_mem _ hpart)

theorem Rule.Inside.mem_callees {called rule : Rule} (h : called.Inside rule.parts) :
    called ∈ rule.callees := by
  obtain ⟨inner, h⟩ := h
  exact List.mem_filterMap.2 ⟨.call called inner, h.subset List.mem_cons_self, rfl⟩

theorem Rule.Inside.callees_subset {called rule : Rule} (h : called.Inside rule.parts) :
    called.callees ⊆ rule.callees :=
  List.filterMap_subset _ h.parts_subset

end Reshape
