import Reshape.Proofs.Pattern.Normal
import Reshape.Proofs.Rule.Parts
import Reshape.Rule.Equality

/-!
# Normal forms of rules

The normal form of a rule has all terms inside it in normal form, and those inside the
rules that it calls. Equal rules have one normal form if their terms have distinct keys
(`Rule.normal_eq_of_beq`).

A rule is plain if its terms have distinct keys and no part of it builds keys while it maps
fields: such a rule does not look at the order of fields.
-/

namespace Reshape

/-! ## Plain rules -/

def Terminal.terms : Terminal → List Term
  | .term result => [result]
  | .input | .unmatched | .undefined _ => []

/-- The terms in the terminal and the patterns of a rule. -/
def Rule.ownTerms (rule : Rule) : List Term :=
  rule.terminal.terms ++ rule.arms.flatMap (·.pattern.terms)

/-- The terms in a template, except for those of its parts. -/
def Template.ownTerms : Template → List Term
  | .literal term => [term]
  | .call rule _ => rule.ownTerms
  | _ => []

/-- Whether the template maps fields to keys that it builds. -/
def Template.isKeyed : Template → Bool
  | .mapFields _ (some _) .. => true
  | _ => false

/-- All terms in a rule and in the rules that it calls. -/
def Rule.terms (rule : Rule) : List Term :=
  rule.ownTerms ++ rule.parts.flatMap Template.ownTerms

/-- All terms in the rule have distinct keys. -/
def Rule.WellKeyed (rule : Rule) : Prop := ∀ term ∈ rule.terms, term.WellKeyed

/-- Nothing in the rule maps fields to keys that it builds. -/
def Rule.Keyless (rule : Rule) : Prop := ∀ part ∈ rule.parts, part.isKeyed = false

/-- The template keeps keys, and its own terms have distinct ones. -/
structure Template.Plain (template : Template) : Prop where
  keyless : template.isKeyed = false
  wellKeyed : ∀ term ∈ template.ownTerms, term.WellKeyed

structure Rule.Plain (rule : Rule) : Prop where
  wellKeyed : ∀ term ∈ rule.ownTerms, term.WellKeyed
  parts : ∀ part ∈ rule.parts, part.Plain

theorem Rule.plain_of_keyless {rule : Rule} (hkeyless : rule.Keyless) (hwell : rule.WellKeyed) :
    rule.Plain := by
  simp only [WellKeyed, terms, List.forall_mem_append, List.mem_flatMap] at hwell
  refine ⟨hwell.1, fun part hpart => ⟨hkeyless part hpart, fun term hterm => ?_⟩⟩
  exact hwell.2 term ⟨part, hpart, hterm⟩

/-! ## Normal forms -/

def Terminal.normal : Terminal → Terminal
  | .input => .input
  | .term result => .term result.normal
  | .unmatched => .unmatched
  | .undefined reason => .undefined reason

mutual

/-- The template with the terms inside it in normal form. -/
def Template.normal : Template → Template
  | .capture name => .capture name
  | .literal term => .literal term.normal
  | .seq items => .seq (Template.normalItems items)
  | .text pieces => .text (Template.normalPieces pieces)
  | .recase op inner => .recase op inner.normal
  | .length inner => .length inner.normal
  | .apply head args => .apply head (Template.normalAll args)
  | .function kind receiver params result =>
    .function kind (Template.normalOption receiver) params.normal result.normal
  | .mapFields source key filter value readonly optional =>
    .mapFields source.normal (Template.normalOption key) (Guard.normalOption filter) value.normal
      readonly optional
  | .reduce inner => .reduce inner.normal
  | .call rule inner => .call rule.normal inner.normal
  | .undefined reason => .undefined reason
termination_by structural template => template

def Template.normalItems : List (SeqItem Template) → List (SeqItem Template)
  | [] => []
  | .element template :: rest => .element template.normal :: Template.normalItems rest
  | .splice template :: rest => .splice template.normal :: Template.normalItems rest
termination_by structural items => items

def Template.normalPieces : List (TextPiece Template) → List (TextPiece Template)
  | [] => []
  | .literal s :: rest => .literal s :: Template.normalPieces rest
  | .insert template :: rest => .insert template.normal :: Template.normalPieces rest
termination_by structural pieces => pieces

def Template.normalAll : List Template → List Template
  | [] => []
  | template :: rest => template.normal :: Template.normalAll rest
termination_by structural templates => templates

def Template.normalOption : Option Template → Option Template
  | none => none
  | some template => some template.normal
termination_by structural template => template

def Guard.normal : Guard → Guard
  | .equal left right => .equal left.normal right.normal
  | .fits sub sup => .fits sub.normal sup.normal
  | .negation inner => .negation inner.normal
  | .all guards => .all (Guard.normalAll guards)
termination_by structural guard => guard

def Guard.normalAll : List Guard → List Guard
  | [] => []
  | guard :: rest => guard.normal :: Guard.normalAll rest
termination_by structural guards => guards

def Guard.normalOption : Option Guard → Option Guard
  | none => none
  | some guard => some guard.normal
termination_by structural guard => guard

def Arm.normal : Arm → Arm
  | ⟨pattern, guard, body⟩ => ⟨pattern.normal, Guard.normalOption guard, body.normal⟩
termination_by structural arm => arm

def Arm.normalAll : List Arm → List Arm
  | [] => []
  | arm :: rest => arm.normal :: Arm.normalAll rest
termination_by structural arms => arms

/-- The rule with all terms inside it in normal form. -/
def Rule.normal : Rule → Rule
  | ⟨name, arms, terminal, recursion⟩ => ⟨name, Arm.normalAll arms, terminal.normal, recursion⟩
termination_by structural rule => rule

end

/-! ## Equal rules -/

theorem Terminal.normal_eq_of_beq {a b : Terminal} (ha : ∀ t ∈ a.terms, t.WellKeyed)
    (hb : ∀ t ∈ b.terms, t.WellKeyed) (h : a.beq b = true) : a.normal = b.normal := by
  cases a with
  | term s =>
    cases b with
    | term t =>
      have heq := (Term.beq_iff (ha s List.mem_cons_self) (hb t List.mem_cons_self)).1 h
      rw [normal, normal, heq]
    | _ => cases h
  | _ => cases b <;> simp_all [beq, normal]

mutual

/-- Equal templates have one normal form. -/
theorem Template.normal_eq_of_beq (x : Template) {y : Template} (hx : ∀ part ∈ x.parts, part.Plain)
    (hy : ∀ part ∈ y.parts, part.Plain) (h : x.beq y = true) : x.normal = y.normal := by
  match x with
  | .capture a => cases y <;> simp_all [Template.beq, Template.normal]
  | .literal s =>
    cases y with
    | literal t =>
      have hs := (hx _ List.mem_cons_self).wellKeyed s List.mem_cons_self
      have ht := (hy _ List.mem_cons_self).wellKeyed t List.mem_cons_self
      rw [Template.normal, Template.normal, (Term.beq_iff hs ht).1 h]
    | _ => cases h
  | .seq xs =>
    cases y with
    | seq ys =>
      simp only [Template.parts, List.forall_mem_cons] at hx hy
      rw [Template.normal, Template.normal, Template.normalItems_eq_of_beq xs hx.2 hy.2 h]
    | _ => cases h
  | .text xs =>
    cases y with
    | text ys =>
      simp only [Template.parts, List.forall_mem_cons] at hx hy
      rw [Template.normal, Template.normal, Template.normalPieces_eq_of_beq xs hx.2 hy.2 h]
    | _ => cases h
  | .recase op x =>
    cases y with
    | recase op' y =>
      simp only [Template.parts, List.forall_mem_cons] at hx hy
      rw [Template.beq, Bool.and_eq_true, beq_iff_eq] at h
      rw [Template.normal, Template.normal, h.1, Template.normal_eq_of_beq x hx.2 hy.2 h.2]
    | _ => cases h
  | .length x =>
    cases y with
    | length y =>
      simp only [Template.parts, List.forall_mem_cons] at hx hy
      rw [Template.normal, Template.normal, Template.normal_eq_of_beq x hx.2 hy.2 h]
    | _ => cases h
  | .apply f xs =>
    cases y with
    | apply g ys =>
      simp only [Template.parts, List.forall_mem_cons] at hx hy
      rw [Template.beq, Bool.and_eq_true, beq_iff_eq] at h
      rw [Template.normal, Template.normal, h.1, Template.normalAll_eq_of_beq xs hx.2 hy.2 h.2]
    | _ => cases h
  | .function k r p t =>
    cases y with
    | function k' r' p' t' =>
      simp only [Template.parts, List.forall_mem_cons, List.forall_mem_append] at hx hy
      rw [Template.beq, Bool.and_eq_true, Bool.and_eq_true, Bool.and_eq_true, beq_iff_eq] at h
      rw [Template.normal, Template.normal, h.1.1.1,
        Template.normalOption_eq_of_beq r hx.2.1.1 hy.2.1.1 h.1.1.2,
        Template.normal_eq_of_beq p hx.2.1.2 hy.2.1.2 h.1.2,
        Template.normal_eq_of_beq t hx.2.2 hy.2.2 h.2]
    | _ => cases h
  | .mapFields s k f v ro op =>
    cases y with
    | mapFields s' k' f' v' ro' op' =>
      simp only [Template.parts, List.forall_mem_cons, List.forall_mem_append] at hx hy
      simp only [Template.beq, Bool.and_eq_true, beq_iff_eq] at h
      obtain ⟨⟨⟨⟨⟨hs, hk⟩, hf⟩, hv⟩, rfl⟩, rfl⟩ := h
      rw [Template.normal, Template.normal,
        Template.normal_eq_of_beq s hx.2.1.1.1 hy.2.1.1.1 hs,
        Template.normalOption_eq_of_beq k hx.2.1.1.2 hy.2.1.1.2 hk,
        Guard.normalOption_eq_of_beq f hx.2.1.2 hy.2.1.2 hf,
        Template.normal_eq_of_beq v hx.2.2 hy.2.2 hv]
    | _ => cases h
  | .reduce x =>
    cases y with
    | reduce y =>
      simp only [Template.parts, List.forall_mem_cons] at hx hy
      rw [Template.normal, Template.normal, Template.normal_eq_of_beq x hx.2 hy.2 h]
    | _ => cases h
  | .call r x =>
    cases y with
    | call r' y =>
      simp only [Template.parts, List.forall_mem_cons, List.forall_mem_append] at hx hy
      rw [Template.beq, Bool.and_eq_true] at h
      rw [Template.normal, Template.normal,
        Rule.normal_eq_of_beq r ⟨hx.1.wellKeyed, hx.2.1⟩ ⟨hy.1.wellKeyed, hy.2.1⟩ h.1,
        Template.normal_eq_of_beq x hx.2.2 hy.2.2 h.2]
    | _ => cases h
  | .undefined r => cases y <;> simp_all [Template.beq, Template.normal]
termination_by structural x

theorem Template.normalItems_eq_of_beq (xs : List (SeqItem Template)) {ys : List (SeqItem Template)}
    (hx : ∀ part ∈ Template.partsItems xs, part.Plain)
    (hy : ∀ part ∈ Template.partsItems ys, part.Plain) (h : Template.beqItems xs ys = true) :
    Template.normalItems xs = Template.normalItems ys := by
  match xs, ys with
  | [], [] => rfl
  | .element x :: xs, .element y :: ys | .splice x :: xs, .splice y :: ys =>
    simp only [Template.partsItems, List.forall_mem_append] at hx hy
    rw [Template.beqItems, Bool.and_eq_true] at h
    rw [Template.normalItems, Template.normalItems, Template.normal_eq_of_beq x hx.1 hy.1 h.1,
      Template.normalItems_eq_of_beq xs hx.2 hy.2 h.2]
termination_by structural xs

theorem Template.normalPieces_eq_of_beq (xs : List (TextPiece Template))
    {ys : List (TextPiece Template)} (hx : ∀ part ∈ Template.partsPieces xs, part.Plain)
    (hy : ∀ part ∈ Template.partsPieces ys, part.Plain) (h : Template.beqPieces xs ys = true) :
    Template.normalPieces xs = Template.normalPieces ys := by
  match xs, ys with
  | [], [] => rfl
  | .literal s :: xs, .literal t :: ys =>
    rw [Template.partsPieces] at hx hy
    rw [Template.beqPieces, Bool.and_eq_true, beq_iff_eq] at h
    rw [Template.normalPieces, Template.normalPieces, h.1,
      Template.normalPieces_eq_of_beq xs hx hy h.2]
  | .insert x :: xs, .insert y :: ys =>
    simp only [Template.partsPieces, List.forall_mem_append] at hx hy
    rw [Template.beqPieces, Bool.and_eq_true] at h
    rw [Template.normalPieces, Template.normalPieces, Template.normal_eq_of_beq x hx.1 hy.1 h.1,
      Template.normalPieces_eq_of_beq xs hx.2 hy.2 h.2]
termination_by structural xs

theorem Template.normalAll_eq_of_beq (xs : List Template) {ys : List Template}
    (hx : ∀ part ∈ Template.partsAll xs, part.Plain)
    (hy : ∀ part ∈ Template.partsAll ys, part.Plain) (h : Template.beqAll xs ys = true) :
    Template.normalAll xs = Template.normalAll ys := by
  match xs, ys with
  | [], [] => rfl
  | x :: xs, y :: ys =>
    simp only [Template.partsAll, List.forall_mem_append] at hx hy
    rw [Template.beqAll, Bool.and_eq_true] at h
    rw [Template.normalAll, Template.normalAll, Template.normal_eq_of_beq x hx.1 hy.1 h.1,
      Template.normalAll_eq_of_beq xs hx.2 hy.2 h.2]
termination_by structural xs

theorem Template.normalOption_eq_of_beq (x : Option Template) {y : Option Template}
    (hx : ∀ part ∈ Template.partsOption x, part.Plain)
    (hy : ∀ part ∈ Template.partsOption y, part.Plain) (h : Template.beqOption x y = true) :
    Template.normalOption x = Template.normalOption y := by
  match x, y with
  | none, none => rfl
  | some x, some y =>
    rw [Template.normalOption, Template.normalOption, Template.normal_eq_of_beq x hx hy h]
termination_by structural x

/-- Equal guards have one normal form. -/
theorem Guard.normal_eq_of_beq (g : Guard) {h : Guard} (hg : ∀ part ∈ g.parts, part.Plain)
    (hh : ∀ part ∈ h.parts, part.Plain) (heq : g.beq h = true) : g.normal = h.normal := by
  match g with
  | .equal a b =>
    cases h with
    | equal a' b' =>
      simp only [Guard.parts, List.forall_mem_append] at hg hh
      rw [Guard.beq, Bool.and_eq_true] at heq
      rw [Guard.normal, Guard.normal, Template.normal_eq_of_beq a hg.1 hh.1 heq.1,
        Template.normal_eq_of_beq b hg.2 hh.2 heq.2]
    | _ => cases heq
  | .fits a b =>
    cases h with
    | fits a' b' =>
      simp only [Guard.parts, List.forall_mem_append] at hg hh
      rw [Guard.beq, Bool.and_eq_true] at heq
      rw [Guard.normal, Guard.normal, Template.normal_eq_of_beq a hg.1 hh.1 heq.1,
        Template.normal_eq_of_beq b hg.2 hh.2 heq.2]
    | _ => cases heq
  | .negation g =>
    cases h with
    | negation h => rw [Guard.normal, Guard.normal, Guard.normal_eq_of_beq g (h := h) hg hh heq]
    | _ => cases heq
  | .all gs =>
    cases h with
    | all hs => rw [Guard.normal, Guard.normal, Guard.normalAll_eq_of_beq gs hg hh heq]
    | _ => cases heq
termination_by structural g

theorem Guard.normalAll_eq_of_beq (gs : List Guard) {hs : List Guard}
    (hg : ∀ part ∈ Guard.partsAll gs, part.Plain) (hh : ∀ part ∈ Guard.partsAll hs, part.Plain)
    (heq : Guard.beqAll gs hs = true) : Guard.normalAll gs = Guard.normalAll hs := by
  match gs, hs with
  | [], [] => rfl
  | g :: gs, h :: hs =>
    simp only [Guard.partsAll, List.forall_mem_append] at hg hh
    rw [Guard.beqAll, Bool.and_eq_true] at heq
    rw [Guard.normalAll, Guard.normalAll, Guard.normal_eq_of_beq g hg.1 hh.1 heq.1,
      Guard.normalAll_eq_of_beq gs hg.2 hh.2 heq.2]
termination_by structural gs

theorem Guard.normalOption_eq_of_beq (g : Option Guard) {h : Option Guard}
    (hg : ∀ part ∈ Guard.partsOption g, part.Plain)
    (hh : ∀ part ∈ Guard.partsOption h, part.Plain) (heq : Guard.beqOption g h = true) :
    Guard.normalOption g = Guard.normalOption h := by
  match g, h with
  | none, none => rfl
  | some g, some h =>
    rw [Guard.normalOption, Guard.normalOption, Guard.normal_eq_of_beq g hg hh heq]
termination_by structural g

/-- Equal arms have one normal form. -/
theorem Arm.normal_eq_of_beq (a : Arm) {b : Arm} (ha : ∀ t ∈ a.pattern.terms, t.WellKeyed)
    (hb : ∀ t ∈ b.pattern.terms, t.WellKeyed) (hparts : ∀ part ∈ a.parts, part.Plain)
    (hparts' : ∀ part ∈ b.parts, part.Plain) (h : a.beq b = true) : a.normal = b.normal := by
  match a, b with
  | ⟨p, g, x⟩, ⟨q, g', y⟩ =>
    simp only [Arm.parts, List.forall_mem_append] at hparts hparts'
    rw [Arm.beq, Bool.and_eq_true, Bool.and_eq_true] at h
    rw [Arm.normal, Arm.normal, Pattern.normal_eq_of_beq p ha hb h.1.1,
      Guard.normalOption_eq_of_beq g hparts.1 hparts'.1 h.1.2,
      Template.normal_eq_of_beq x hparts.2 hparts'.2 h.2]
termination_by structural a

theorem Arm.normalAll_eq_of_beq (as : List Arm) {bs : List Arm}
    (ha : ∀ t ∈ as.flatMap (·.pattern.terms), t.WellKeyed)
    (hb : ∀ t ∈ bs.flatMap (·.pattern.terms), t.WellKeyed)
    (hparts : ∀ part ∈ Arm.partsAll as, part.Plain)
    (hparts' : ∀ part ∈ Arm.partsAll bs, part.Plain) (h : Arm.beqAll as bs = true) :
    Arm.normalAll as = Arm.normalAll bs := by
  match as, bs with
  | [], [] => rfl
  | a :: as, b :: bs =>
    simp only [List.flatMap_cons, Arm.partsAll, List.forall_mem_append] at ha hb hparts hparts'
    rw [Arm.beqAll, Bool.and_eq_true] at h
    rw [Arm.normalAll, Arm.normalAll, Arm.normal_eq_of_beq a ha.1 hb.1 hparts.1 hparts'.1 h.1,
      Arm.normalAll_eq_of_beq as ha.2 hb.2 hparts.2 hparts'.2 h.2]
termination_by structural as

/-- Equal rules have one normal form. -/
theorem Rule.normal_eq_of_beq (r : Rule) {r' : Rule} (hr : r.Plain) (hr' : r'.Plain)
    (h : r.beq r' = true) : r.normal = r'.normal := by
  match r, r' with
  | ⟨name, arms, terminal, recursion⟩, ⟨name', arms', terminal', recursion'⟩ =>
    have hterms := List.forall_mem_append.1 hr.wellKeyed
    have hterms' := List.forall_mem_append.1 hr'.wellKeyed
    simp only [Rule.beq, Bool.and_eq_true, beq_iff_eq] at h
    rw [Rule.normal, Rule.normal, h.1.1.1, h.2,
      Arm.normalAll_eq_of_beq arms hterms.2 hterms'.2 hr.parts hr'.parts h.1.1.2,
      Terminal.normal_eq_of_beq hterms.1 hterms'.1 h.1.2]
termination_by structural r

end

end Reshape
