import Reshape.Proofs.Pattern.Scope
import Reshape.Rule.Equality

/-!
# Contracts of rules

A contract says what a rule takes, and what it gives then; a rule may have several. Whether a rule
honours its contracts is computed from its definition, with the contracts of the rules that it calls
and of itself, where it re-enters itself (`Rule.honours`): every template gets terms of the kinds
that it needs, and nothing is undefined.

Contracts go by the names of rules. Of two rules that are equal, both honour them or neither does
(`Rule.honours_eq_of_beq`).
-/

namespace Reshape

/-- What a rule gives for terms that it takes. -/
structure Contract where
  takes : Outline
  gives : Outline

/-- The contracts of rules, by the names of the rules. -/
abbrev Contracts := String → List Contract

/-- Some contract of the rule takes any term. -/
def Contracts.TakesAny (contracts : Contracts) (name : String) : Prop :=
  ∃ gives, ⟨.any, gives⟩ ∈ contracts name

/-- What is known inside a mapped field. -/
def Scope.forField (scope : Scope) : Scope :=
  (Captures.valueName, .own .any) :: (Captures.keyName, .own (.kind .text)) ::
    scope.filter fun fact => fact.1 != Captures.keyName && fact.1 != Captures.valueName

/-- Whether the result is as the contract says if no arm applies. -/
def Terminal.honours : Terminal → Contract → Bool
  | .input, contract => contract.takes.implies contract.gives
  | .term result, contract => contract.gives.admits result
  | .unmatched, contract => contract.gives.admits .never
  | .undefined _, _ => false

variable (contracts : Contracts)

mutual

/-- Whether the template builds a term as it is needed, from captures of the scope, in a rule with
the given contracts. -/
def Template.builds (own : List Contract) (scope : Scope) : Template → Aspect → Bool
  | .capture name, needed => scope.any fun fact => fact.1 == name && fact.2.implies needed
  | .literal term, needed => needed.admits term
  | .seq items, .own (.tuple outlines) => Template.buildsItems own scope items outlines
  | .seq items, needed =>
    (Aspect.own (.kind .seq)).implies needed && Template.buildsItems own scope items []
  | .text pieces, needed =>
    (Aspect.own (.kind .text)).implies needed && Template.buildsPieces own scope pieces
  | .recase _ inner, needed =>
    (Aspect.own (.kind .text)).implies needed && inner.builds own scope (.behind .text)
  | .length inner, needed =>
    (Aspect.own (.kind .atom)).implies needed &&
      (inner.builds own scope (.behind .seq) || inner.builds own scope (.behind .text))
  | .apply _ args, needed =>
    (Aspect.own (.kind .apply)).implies needed && Template.buildsAll own scope args
  | .function _ receiver params result, needed =>
    (Aspect.own (.kind .function)).implies needed &&
      Template.buildsOption own scope receiver (.own .any) &&
      params.builds own scope (.behind .seq) && result.builds own scope (.own .any)
  | .mapFields source key filter value _ _, needed =>
    (Aspect.own (.kind .composite)).implies needed &&
      source.builds own scope (.behind .composite) &&
      Template.buildsOption own scope.forField key (.behind .text) &&
      Guard.buildsOption own scope.forField filter && value.builds own scope.forField (.own .any)
  | .reduce inner, needed =>
    own.any fun contract =>
      (Aspect.own contract.gives).implies needed && inner.builds own scope (.own contract.takes)
  | .call rule inner, needed =>
    rule.honours && (contracts rule.name).any fun contract =>
      (Aspect.own contract.gives).implies needed && inner.builds own scope (.own contract.takes)
  | .undefined _, _ => false
termination_by structural template => template

/-- Whether the items build elements, the first of them with the outlines. -/
def Template.buildsItems (own : List Contract) (scope : Scope) :
    List (SeqItem Template) → List Outline → Bool
  | [], _ => true
  | .element template :: rest, outlines =>
    template.builds own scope (.own (outlines.headD .any)) &&
      Template.buildsItems own scope rest outlines.tail
  | .splice template :: rest, outlines =>
    outlines.isEmpty && template.builds own scope (.behind .seq) &&
      Template.buildsItems own scope rest []
termination_by structural items => items

/-- Whether the pieces build a text. -/
def Template.buildsPieces (own : List Contract) (scope : Scope) : List (TextPiece Template) → Bool
  | [] => true
  | .literal _ :: rest => Template.buildsPieces own scope rest
  | .insert template :: rest =>
    template.builds own scope (.behind .text) && Template.buildsPieces own scope rest
termination_by structural pieces => pieces

/-- Whether all the templates build terms. -/
def Template.buildsAll (own : List Contract) (scope : Scope) : List Template → Bool
  | [] => true
  | template :: rest =>
    template.builds own scope (.own .any) && Template.buildsAll own scope rest
termination_by structural templates => templates

/-- Whether the template, if there is one, builds a term as it is needed. -/
def Template.buildsOption (own : List Contract) (scope : Scope) : Option Template → Aspect → Bool
  | none, _ => true
  | some template, needed => template.builds own scope needed
termination_by structural template => template

/-- Whether the templates of the guard build terms. -/
def Guard.builds (own : List Contract) (scope : Scope) : Guard → Bool
  | .equal left right | .fits left right =>
    left.builds own scope (.own .any) && right.builds own scope (.own .any)
  | .negation inner => inner.builds own scope
  | .all guards => Guard.buildsAll own scope guards
termination_by structural guard => guard

/-- Whether the templates of all the guards build terms. -/
def Guard.buildsAll (own : List Contract) (scope : Scope) : List Guard → Bool
  | [] => true
  | guard :: rest => guard.builds own scope && Guard.buildsAll own scope rest
termination_by structural guards => guards

/-- Whether the templates of the guard, if there is one, build terms. -/
def Guard.buildsOption (own : List Contract) (scope : Scope) : Option Guard → Bool
  | none => true
  | some guard => guard.builds own scope
termination_by structural guard => guard

/-- Whether the arm gives what the contract says. -/
def Arm.honours (own : List Contract) (contract : Contract) : Arm → Bool
  | ⟨pattern, guard, body⟩ =>
    Guard.buildsOption own (pattern.scope contract.takes) guard &&
      body.builds own (pattern.scope contract.takes) (.own contract.gives)
termination_by structural arm => arm

/-- Whether all the arms give what the contract says. -/
def Arm.allHonour (own : List Contract) (contract : Contract) : List Arm → Bool
  | [] => true
  | arm :: rest => arm.honours own contract && Arm.allHonour own contract rest
termination_by structural arms => arms

/-- Whether the rule honours all of its contracts, and so do the rules that it calls. -/
def Rule.honours : Rule → Bool
  | ⟨name, arms, terminal, _⟩ =>
    (contracts name).all fun contract =>
      terminal.honours contract && Arm.allHonour (contracts name) contract arms
termination_by structural rule => rule

end

/-! ## Equal rules -/

variable {contracts}

theorem Terminal.honours_eq_of_beq {a b : Terminal} (contract : Contract) (h : a.beq b = true) :
    a.honours contract = b.honours contract := by
  cases a with
  | term s =>
    cases b with
    | term t => exact contract.gives.admits_eq_of_beq h
    | _ => cases h
  | _ => cases b <;> first | rfl | cases h

theorem Rule.name_eq_of_beq {r r' : Rule} (h : r.beq r' = true) : r.name = r'.name := by
  cases r
  simp only [Rule.beq, Bool.and_eq_true, beq_iff_eq] at h
  exact h.1.1.1

mutual

/-- Of equal templates both build a term as it is needed or neither does. -/
theorem Template.builds_eq_of_beq (x : Template) {y : Template} (own : List Contract) (scope : Scope)
    (needed : Aspect) (h : x.beq y = true) :
    x.builds contracts own scope needed = y.builds contracts own scope needed := by
  match x with
  | .capture a =>
    cases y with
    | capture b => rw [beq_iff_eq.1 (show (a == b) = true from h)]
    | _ => cases h
  | .literal s =>
    cases y with
    | literal t => exact Aspect.admits_eq_of_beq h
    | _ => cases h
  | .seq xs =>
    cases y with
    | seq ys =>
      have hitems := fun outlines =>
        Template.buildsItems_eq_of_beqItems xs own scope outlines h
      match needed with
      | .own (.tuple outlines) => exact hitems outlines
      | .own .any | .own (.kind _) | .behind _ => rw [Template.builds, Template.builds, hitems] <;> nofun
    | _ => cases h
  | .text xs =>
    cases y with
    | text ys => rw [Template.builds, Template.builds, Template.buildsPieces_eq_of_beqPieces xs own scope h]
    | _ => cases h
  | .recase op x =>
    cases y with
    | recase op' y =>
      rw [Template.beq, Bool.and_eq_true] at h
      rw [Template.builds, Template.builds, Template.builds_eq_of_beq x own scope _ h.2]
    | _ => cases h
  | .length x =>
    cases y with
    | length y =>
      rw [Template.builds, Template.builds, Template.builds_eq_of_beq x (y := y) own scope _ h,
        Template.builds_eq_of_beq x (y := y) own scope _ h]
    | _ => cases h
  | .apply f xs =>
    cases y with
    | apply g ys =>
      rw [Template.beq, Bool.and_eq_true] at h
      rw [Template.builds, Template.builds, Template.buildsAll_eq_of_beqAll xs own scope h.2]
    | _ => cases h
  | .function k r p t =>
    cases y with
    | function k' r' p' t' =>
      rw [Template.beq, Bool.and_eq_true, Bool.and_eq_true, Bool.and_eq_true] at h
      rw [Template.builds, Template.builds, Template.buildsOption_eq_of_beqOption r own scope _ h.1.1.2,
        Template.builds_eq_of_beq p own scope _ h.1.2, Template.builds_eq_of_beq t own scope _ h.2]
    | _ => cases h
  | .mapFields s k f v ro op =>
    cases y with
    | mapFields s' k' f' v' ro' op' =>
      simp only [Template.beq, Bool.and_eq_true] at h
      obtain ⟨⟨⟨⟨⟨hs, hk⟩, hf⟩, hv⟩, -⟩, -⟩ := h
      rw [Template.builds, Template.builds, Template.builds_eq_of_beq s own scope _ hs,
        Template.buildsOption_eq_of_beqOption k own _ _ hk,
        Guard.buildsOption_eq_of_beqOption f own _ hf, Template.builds_eq_of_beq v own _ _ hv]
    | _ => cases h
  | .reduce x =>
    cases y with
    | reduce y =>
      have hinner := fun needed => Template.builds_eq_of_beq x (y := y) own scope needed h
      simp only [Template.builds, hinner]
    | _ => cases h
  | .call r x =>
    cases y with
    | call r' y =>
      rw [Template.beq, Bool.and_eq_true] at h
      have hinner := fun needed => Template.builds_eq_of_beq x own scope needed h.2
      simp only [Template.builds, hinner, Rule.honours_eq_of_beq r h.1, Rule.name_eq_of_beq h.1]
    | _ => cases h
  | .undefined _ => cases y <;> first | rfl | cases h
termination_by structural x

theorem Template.buildsItems_eq_of_beqItems (xs : List (SeqItem Template))
    {ys : List (SeqItem Template)} (own : List Contract) (scope : Scope) (outlines : List Outline)
    (h : Template.beqItems xs ys = true) :
    Template.buildsItems contracts own scope xs outlines =
      Template.buildsItems contracts own scope ys outlines := by
  match xs, ys with
  | [], [] => rfl
  | .element x :: xs, .element y :: ys | .splice x :: xs, .splice y :: ys =>
    rw [Template.beqItems, Bool.and_eq_true] at h
    rw [Template.buildsItems, Template.buildsItems, Template.builds_eq_of_beq x own scope _ h.1,
      Template.buildsItems_eq_of_beqItems xs own scope _ h.2]
termination_by structural xs

theorem Template.buildsPieces_eq_of_beqPieces (xs : List (TextPiece Template))
    {ys : List (TextPiece Template)} (own : List Contract) (scope : Scope)
    (h : Template.beqPieces xs ys = true) :
    Template.buildsPieces contracts own scope xs = Template.buildsPieces contracts own scope ys := by
  match xs, ys with
  | [], [] => rfl
  | .literal s :: xs, .literal t :: ys =>
    rw [Template.beqPieces, Bool.and_eq_true] at h
    rw [Template.buildsPieces, Template.buildsPieces,
      Template.buildsPieces_eq_of_beqPieces xs own scope h.2]
  | .insert x :: xs, .insert y :: ys =>
    rw [Template.beqPieces, Bool.and_eq_true] at h
    rw [Template.buildsPieces, Template.buildsPieces, Template.builds_eq_of_beq x own scope _ h.1,
      Template.buildsPieces_eq_of_beqPieces xs own scope h.2]
termination_by structural xs

theorem Template.buildsAll_eq_of_beqAll (xs : List Template) {ys : List Template}
    (own : List Contract) (scope : Scope) (h : Template.beqAll xs ys = true) :
    Template.buildsAll contracts own scope xs = Template.buildsAll contracts own scope ys := by
  match xs, ys with
  | [], [] => rfl
  | x :: xs, y :: ys =>
    rw [Template.beqAll, Bool.and_eq_true] at h
    rw [Template.buildsAll, Template.buildsAll, Template.builds_eq_of_beq x own scope _ h.1,
      Template.buildsAll_eq_of_beqAll xs own scope h.2]
termination_by structural xs

theorem Template.buildsOption_eq_of_beqOption (x : Option Template) {y : Option Template}
    (own : List Contract) (scope : Scope) (needed : Aspect) (h : Template.beqOption x y = true) :
    Template.buildsOption contracts own scope x needed =
      Template.buildsOption contracts own scope y needed := by
  match x, y with
  | none, none => rfl
  | some x, some y => exact Template.builds_eq_of_beq x own scope needed h
termination_by structural x

theorem Guard.builds_eq_of_beq (g : Guard) {g' : Guard} (own : List Contract) (scope : Scope)
    (h : g.beq g' = true) : g.builds contracts own scope = g'.builds contracts own scope := by
  match g with
  | .equal a b =>
    cases g' with
    | equal a' b' =>
      rw [Guard.beq, Bool.and_eq_true] at h
      rw [Guard.builds, Guard.builds, Template.builds_eq_of_beq a own scope _ h.1,
        Template.builds_eq_of_beq b own scope _ h.2]
    | _ => cases h
  | .fits a b =>
    cases g' with
    | fits a' b' =>
      rw [Guard.beq, Bool.and_eq_true] at h
      rw [Guard.builds, Guard.builds, Template.builds_eq_of_beq a own scope _ h.1,
        Template.builds_eq_of_beq b own scope _ h.2]
    | _ => cases h
  | .negation g =>
    cases g' with
    | negation g' =>
      rw [Guard.beq] at h
      rw [Guard.builds, Guard.builds, Guard.builds_eq_of_beq g own scope h]
    | _ => cases h
  | .all gs =>
    cases g' with
    | all gs' => exact Guard.buildsAll_eq_of_beqAll gs own scope h
    | _ => cases h
termination_by structural g

theorem Guard.buildsAll_eq_of_beqAll (gs : List Guard) {gs' : List Guard} (own : List Contract)
    (scope : Scope) (h : Guard.beqAll gs gs' = true) :
    Guard.buildsAll contracts own scope gs = Guard.buildsAll contracts own scope gs' := by
  match gs, gs' with
  | [], [] => rfl
  | g :: gs, g' :: gs' =>
    rw [Guard.beqAll, Bool.and_eq_true] at h
    rw [Guard.buildsAll, Guard.buildsAll, Guard.builds_eq_of_beq g own scope h.1,
      Guard.buildsAll_eq_of_beqAll gs own scope h.2]
termination_by structural gs

theorem Guard.buildsOption_eq_of_beqOption (g : Option Guard) {g' : Option Guard}
    (own : List Contract) (scope : Scope) (h : Guard.beqOption g g' = true) :
    Guard.buildsOption contracts own scope g = Guard.buildsOption contracts own scope g' := by
  match g, g' with
  | none, none => rfl
  | some g, some g' => exact Guard.builds_eq_of_beq g own scope h
termination_by structural g

theorem Arm.honours_eq_of_beq (a : Arm) {a' : Arm} (own : List Contract) (contract : Contract)
    (h : a.beq a' = true) :
    a.honours contracts own contract = a'.honours contracts own contract := by
  match a, a' with
  | ⟨p, g, x⟩, ⟨p', g', x'⟩ =>
    rw [Arm.beq, Bool.and_eq_true, Bool.and_eq_true] at h
    rw [Arm.honours, Arm.honours, Pattern.scope_eq_of_beq p _ h.1.1,
      Guard.buildsOption_eq_of_beqOption g own _ h.1.2, Template.builds_eq_of_beq x own _ _ h.2]
termination_by structural a

theorem Arm.allHonour_eq_of_beqAll (as : List Arm) {as' : List Arm} (own : List Contract)
    (contract : Contract) (h : Arm.beqAll as as' = true) :
    Arm.allHonour contracts own contract as = Arm.allHonour contracts own contract as' := by
  match as, as' with
  | [], [] => rfl
  | a :: as, a' :: as' =>
    rw [Arm.beqAll, Bool.and_eq_true] at h
    rw [Arm.allHonour, Arm.allHonour, Arm.honours_eq_of_beq a own contract h.1,
      Arm.allHonour_eq_of_beqAll as own contract h.2]
termination_by structural as

/-- Of equal rules both honour their contracts or neither does. -/
theorem Rule.honours_eq_of_beq (r : Rule) {r' : Rule} (h : r.beq r' = true) :
    r.honours contracts = r'.honours contracts := by
  match r, r' with
  | ⟨name, arms, terminal, _⟩, ⟨name', arms', terminal', _⟩ =>
    simp only [Rule.beq, Bool.and_eq_true, beq_iff_eq] at h
    have harms := fun own contract =>
      Arm.allHonour_eq_of_beqAll arms own contract h.1.1.2
    have hterminal := fun contract => Terminal.honours_eq_of_beq contract h.1.2
    simp only [Rule.honours, h.1.1.1, harms, hterminal]
termination_by structural r

end

end Reshape
