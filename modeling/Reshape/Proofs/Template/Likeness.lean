import Reshape.Proofs.Pattern.Likeness
import Reshape.Proofs.Reduction.Lockstep
import Reshape.Proofs.Rule.Normal

/-!
# Rules on terms that are alike

A rule whose patterns are linear and whose guards compare with settled terms does the same on
terms that are alike, step by step (`Likeness.step_twin`): its templates build terms that
are alike from captures that are alike, and ask for terms that are alike.
-/

namespace Reshape

namespace Likeness

variable {decls : Declarations} (like : Likeness decls)

/-! ## Conditions on rules -/

/-- What the template builds is settled. -/
def Settles : Template → Prop
  | .literal term => like.settled term
  | .length _ => True
  | _ => ∀ term, like.settled term

mutual

/-- Every comparison in the guard is with a settled term. -/
def SettledGuard : Guard → Prop
  | .equal left right => like.Settles left ∨ like.Settles right
  | .fits sub sup => like.Settles sub ∨ like.Settles sup
  | .negation inner => SettledGuard inner
  | .all guards => SettledGuards guards
termination_by structural guard => guard

def SettledGuards : List Guard → Prop
  | [] => True
  | guard :: rest => SettledGuard guard ∧ SettledGuards rest
termination_by structural guards => guards

end

/-- The terminal, the patterns and the guards of a rule treat terms that are alike the same, and it
may be run on them. -/
structure SuitsOwn (rule : Rule) : Prop where
  shrinks : rule.recursion = .shrinking → like.mayShrink
  terminal : ∀ term ∈ rule.terminal.terms, like.alike term term
  arms : ∀ arm ∈ rule.arms, arm.pattern.Linear ∧ ∀ guard ∈ arm.guard, like.SettledGuard guard

/-- A template in a rule treats terms that are alike the same, if the rule may be fed back all of
them where `selfs` holds. -/
def SuitsPart (selfs : Prop) : Template → Prop
  | .literal term => like.alike term term
  | .mapFields _ _ filter _ _ _ => like.inOrder ∧ ∀ guard ∈ filter, like.SettledGuard guard
  | .reduce _ => selfs
  | .call rule _ => like.SuitsOwn rule
  | _ => True

/-- A rule treats terms that are alike the same. -/
structure Suits (rule : Rule) : Prop where
  own : like.SuitsOwn rule
  parts : ∀ part ∈ rule.parts, like.SuitsPart True part

/-- Requests with terms that are alike are related: terms that are fed back where `selfs` holds,
and calls of rules that treat them the same. -/
structure Asks (selfs : Prop) (asks : Request → Request → Prop) : Prop where
  self : selfs → ∀ x y, like.alike x y → asks (.self x) (.self y)
  call : ∀ rule x y, like.Suits rule → like.alike x y → asks (.call rule x) (.call rule y)

/-! ### What there is in a rule -/

end Likeness

/-- The patterns of a rule, and those of the rules that it calls. -/
def Rule.patterns (rule : Rule) : List Pattern :=
  (rule :: rule.callees).flatMap fun rule => rule.arms.map (·.pattern)

/-- The guard that a template maps fields by. -/
def Template.filter? : Template → Option Guard
  | .mapFields _ _ filter _ _ _ => filter
  | _ => none

/-- The guards of a rule, and those of the rules that it calls. -/
def Rule.guards (rule : Rule) : List Guard :=
  ((rule :: rule.callees).flatMap fun rule => rule.arms.filterMap (·.guard)) ++
    rule.parts.filterMap Template.filter?

/-- Whether the template maps fields. -/
def Template.isMap : Template → Bool
  | .mapFields .. => true
  | _ => false

namespace Likeness

variable {decls : Declarations} {like : Likeness decls}

theorem suitsOwn_of_lists {rule called : Rule} (hcalled : called ∈ rule :: rule.callees)
    (hshrinks : ∀ called ∈ rule :: rule.callees, called.recursion = .shrinking → like.mayShrink)
    (hterms : ∀ term ∈ called.ownTerms, like.alike term term)
    (hpatterns : ∀ pattern ∈ rule.patterns, pattern.Linear)
    (hguards : ∀ guard ∈ rule.guards, like.SettledGuard guard) : like.SuitsOwn called := by
  refine ⟨hshrinks called hcalled, fun term hterm => hterms term (List.mem_append_left _ hterm),
    fun arm harm => ⟨?_, ?_⟩⟩
  · exact hpatterns _ (List.mem_flatMap.2 ⟨called, hcalled, List.mem_map_of_mem harm⟩)
  · intro guard hguard
    refine hguards guard (List.mem_append_left _ ?_)
    exact List.mem_flatMap.2 ⟨called, hcalled, List.mem_filterMap.2 ⟨arm, harm, hguard⟩⟩

/-- A rule treats terms that are alike the same if its patterns are linear, its guards compare with
settled terms, its own terms are alike themselves, it maps fields only if those stand in
the same order, and it may be run on them with the rules that it calls. -/
theorem suits_of_lists {rule : Rule}
    (hshrinks : ∀ called ∈ rule :: rule.callees, called.recursion = .shrinking → like.mayShrink)
    (hpatterns : ∀ pattern ∈ rule.patterns, pattern.Linear)
    (hguards : ∀ guard ∈ rule.guards, like.SettledGuard guard)
    (hterms : ∀ term ∈ rule.terms, like.alike term term)
    (hmaps : like.inOrder ∨ ∀ part ∈ rule.parts, part.isMap = false) : like.Suits rule := by
  rw [Rule.terms, List.forall_mem_append] at hterms
  refine ⟨suitsOwn_of_lists List.mem_cons_self hshrinks hterms.1 hpatterns hguards, fun part hpart => ?_⟩
  have hown : ∀ term ∈ part.ownTerms, like.alike term term :=
    fun term hterm => hterms.2 term (List.mem_flatMap.2 ⟨part, hpart, hterm⟩)
  cases part with
  | literal term => exact hown term List.mem_cons_self
  | mapFields source key filter value readonly optional =>
    refine ⟨hmaps.resolve_right fun hnone => ?_, fun guard hguard => ?_⟩
    · cases hnone _ hpart
    · exact hguards guard (List.mem_append_right _ (List.mem_filterMap.2 ⟨_, hpart, hguard⟩))
  | call called inner =>
    refine suitsOwn_of_lists (List.mem_cons_of_mem _ ?_) hshrinks hown hpatterns hguards
    exact List.mem_filterMap.2 ⟨_, hpart, rfl⟩
  | _ => trivial

mutual

/-- Where all terms are settled, all guards are. -/
theorem settledGuard_of_forall (h : ∀ term, like.settled term) (guard : Guard) :
    like.SettledGuard guard := by
  have hsettles : ∀ template, like.Settles template := fun template => by
    cases template <;> first | exact h | exact h _ | trivial
  match guard with
  | .equal left _ => exact .inl (hsettles left)
  | .fits sub _ => exact .inl (hsettles sub)
  | .negation inner => exact settledGuard_of_forall h inner
  | .all guards => exact settledGuards_of_forall h guards
termination_by structural guard

theorem settledGuards_of_forall (h : ∀ term, like.settled term) (guards : List Guard) :
    like.SettledGuards guards := by
  match guards with
  | [] => trivial
  | guard :: rest => exact ⟨settledGuard_of_forall h guard, settledGuards_of_forall h rest⟩
termination_by structural guards

end

/-! ## What is needed of a term -/

variable {selfs : Prop} {asks : Request → Request → Prop} {a b : Term}

/-- The twins of this module: plans that get answers that are alike. -/
abbrev Twin (like : Likeness decls) (asks : Request → Request → Prop) {α : Type}
    (values : α → α → Prop) (p q : Plan α) : Prop :=
  p.Twin like.alike asks values q

theorem needSeq_twin (h : like.alike a b) :
    like.Twin asks (List.Forall₂ like.alike) (.lift (decls.resolve a).needSeq)
      (.lift (decls.resolve b).needSeq) := by
  have hresolved := like.resolve h
  generalize decls.resolve a = x, decls.resolve b = y at hresolved
  cases hresolved with
  | seq hitems => exact .done hitems
  | _ => exact .fail _

theorem needComposite_twin (hinOrder : like.inOrder) (h : like.alike a b) :
    like.Twin asks (List.Forall₂ (Entry.Alike like.alike)) (.lift (decls.resolve a).needComposite)
      (.lift (decls.resolve b).needComposite) := by
  have hresolved := like.resolve h
  generalize decls.resolve a = x, decls.resolve b = y at hresolved
  cases hresolved with
  | composite _ hfields => exact .done (hfields hinOrder)
  | _ => exact .fail _

theorem needText_twin (h : like.alike a b) :
    like.Twin asks Eq (.lift (decls.resolve a).needText) (.lift (decls.resolve b).needText) := by
  have hresolved := like.resolve h
  generalize decls.resolve a = x, decls.resolve b = y at hresolved
  cases hresolved with
  | text s => exact .done rfl
  | _ => exact .fail _

theorem needFragment_twin (h : like.alike a b) :
    like.Twin asks Eq (.lift (decls.resolve a).needFragment)
      (.lift (decls.resolve b).needFragment) := by
  have hresolved := like.resolve h
  generalize decls.resolve a = x, decls.resolve b = y at hresolved
  have hsame : x.needFragment = y.needFragment := by cases hresolved <;> rfl
  rw [hsame]
  cases y.needFragment with
  | ok s => exact .done rfl
  | error failure => exact .fail failure

/-- A length is a number, and so settled. -/
theorem needLength_twin (h : like.alike a b) :
    like.Twin asks (fun x y => like.alike x y ∧ like.settled x) (.lift (decls.resolve a).needLength)
      (.lift (decls.resolve b).needLength) := by
  have hresolved := like.resolve h
  generalize decls.resolve a = x, decls.resolve b = y at hresolved
  have hcount : ∀ n, like.alike (.count n) (.count n) ∧ like.settled (.count n) :=
    fun n => ⟨alike_atom _, like.settled_atom _⟩
  cases hresolved with
  | @seq xs ys hitems =>
    have hlength : (Term.seq xs).needLength = (Term.seq ys).needLength := by
      rw [Term.needLength, Term.needLength, Term.length?, Term.length?, hitems.length_eq]
    rw [hlength]
    exact .done (hcount _)
  | text s => exact .done (hcount _)
  | _ => exact .fail _

theorem needKey_twin (old : String) {built built' : Option Term}
    (h : Option.Rel like.alike built built') :
    like.Twin asks Eq (.lift (Term.needKey old (built.map decls.resolve)))
      (.lift (Term.needKey old (built'.map decls.resolve))) := by
  have hsame : Term.needKey old (built.map decls.resolve) =
      Term.needKey old (built'.map decls.resolve) := by
    cases h with
    | none => rfl
    | @some a b h =>
      have hresolved := like.resolve h
      rw [Option.map_some, Option.map_some]
      generalize decls.resolve a = x, decls.resolve b = y at hresolved
      cases hresolved <;> rfl
  rw [hsame]
  cases Term.needKey old (built'.map decls.resolve) with
  | ok key => exact .done rfl
  | error failure => exact .fail failure

theorem lookup_twin {c c' : Captures} (h : like.Captured [] c c') (name : String) :
    like.Twin asks like.alike (.lift (c.lookup name)) (.lift (c'.lookup name)) := by
  have hbound := h.bound name
  rw [Captures.lookup, Captures.lookup]
  generalize c.get? name = x, c'.get? name = y at hbound
  cases hbound with
  | none => exact .fail _
  | some hab => exact .done hab

/-! ## Mapped fields -/

/-- Captures that are alike stay so where a field is mapped. -/
theorem Captured.forField {c c' : Captures} (h : like.Captured [] c c') {x y : Entry Term}
    (hxy : Entry.Alike like.alike x y) :
    like.Captured [] (c.forField x.key x.value) (c'.forField y.key y.value) := by
  refine ⟨fun name => ?_, nofun⟩
  rw [Captures.get?_forField, Captures.get?_forField, hxy.key]
  split
  · exact .some hxy.value
  · split
    · exact .some (alike_text _)
    · exact h.bound name

/-- Fields with distinct keys, alike in order. -/
structure Mapped (like : Likeness decls) (xs ys : Composite) : Prop where
  distinct : xs.Distinct
  alike : List.Forall₂ (Entry.Alike like.alike) xs ys

theorem Mapped.nil (like : Likeness decls) : like.Mapped [] [] := ⟨List.nodup_nil, .nil⟩

theorem Mapped.insert {x y : Entry Term} {xs ys : Composite} (h : like.Mapped xs ys)
    (hxy : Entry.Alike like.alike x y) :
    like.Mapped (Composite.insert x xs) (Composite.insert y ys) := by
  obtain ⟨hdistinct, h⟩ := h
  refine ⟨hdistinct.insert x, ?_⟩
  clear hdistinct
  induction h with
  | nil => exact .cons hxy .nil
  | cons hfield hrest ih =>
    rw [Composite.insert, Composite.insert, hfield.key, hxy.key]
    split
    · exact .cons hxy hrest
    · exact .cons hfield ih

theorem mapField_twin {filter : Captures → Plan Bool} {key : Captures → Plan (Option Term)}
    {value : Captures → Plan Term} (readonly optional : FlagEdit)
    (hfilter : ∀ c c', like.Captured [] c c' → like.Twin asks Eq (filter c) (filter c'))
    (hkey : ∀ c c', like.Captured [] c c' → like.Twin asks (Option.Rel like.alike) (key c) (key c'))
    (hvalue : ∀ c c', like.Captured [] c c' → like.Twin asks like.alike (value c) (value c'))
    {c c' : Captures} (hc : like.Captured [] c c') {mapped mapped' : Composite}
    (hmapped : like.Mapped mapped mapped') {x y : Entry Term} (hxy : Entry.Alike like.alike x y) :
    like.Twin asks like.Mapped
      (mapField decls filter key value readonly optional c mapped x)
      (mapField decls filter key value readonly optional c' mapped' y) := by
  have hinner := hc.forField hxy
  refine (hfilter _ _ hinner).bind fun holds _ heq => ?_
  subst heq
  cases holds with
  | false => exact .done hmapped
  | true =>
    refine (hkey _ _ hinner).bind fun built built' hbuilt => ?_
    rw [hxy.key] at hinner ⊢
    refine (needKey_twin y.key hbuilt).bind fun newKey _ heq => ?_
    subst heq
    cases newKey with
    | none => exact .done hmapped
    | some newKey =>
      refine (hvalue _ _ hinner).bind fun v v' hv => .done ?_
      exact hmapped.insert ⟨rfl, hv, by rw [hxy.modifiers]⟩

theorem foldlM_mapField_twin {filter : Captures → Plan Bool} {key : Captures → Plan (Option Term)}
    {value : Captures → Plan Term} (readonly optional : FlagEdit)
    (hfilter : ∀ c c', like.Captured [] c c' → like.Twin asks Eq (filter c) (filter c'))
    (hkey : ∀ c c', like.Captured [] c c' → like.Twin asks (Option.Rel like.alike) (key c) (key c'))
    (hvalue : ∀ c c', like.Captured [] c c' → like.Twin asks like.alike (value c) (value c'))
    {c c' : Captures} (hc : like.Captured [] c c') {mapped mapped' : Composite}
    (hmapped : like.Mapped mapped mapped') {xs ys : Composite}
    (h : List.Forall₂ (Entry.Alike like.alike) xs ys) :
    like.Twin asks like.Mapped
      (xs.foldlM (mapField decls filter key value readonly optional c) mapped)
      (ys.foldlM (mapField decls filter key value readonly optional c') mapped') := by
  induction h generalizing mapped mapped' with
  | nil => exact .done hmapped
  | cons hxy _ ih =>
    rw [List.foldlM_cons, List.foldlM_cons]
    exact (mapField_twin readonly optional hfilter hkey hvalue hc hmapped hxy).bind
      fun _ _ hnext => ih hnext

/-! ## Templates -/

theorem SuitsPart.mono {part : Template} (h : like.SuitsPart selfs part) :
    like.SuitsPart True part := by
  cases part <;> first | exact h | trivial

mutual

/-- A template builds terms that are alike, and settled ones if what it builds is settled. -/
theorem build_twin (hasks : like.Asks selfs asks) (template : Template)
    (ht : ∀ part ∈ template.parts, like.SuitsPart selfs part) {c c' : Captures}
    (hc : like.Captured [] c c') :
    like.Twin asks (fun x y => like.alike x y ∧ (like.Settles template → like.settled x))
      (template.build decls c) (template.build decls c') := by
  match template with
  | .capture name => exact (lookup_twin hc name).mono (fun _ _ => id) fun _ _ h => ⟨h, fun hall => hall _⟩
  | .literal term => exact .done ⟨ht _ List.mem_cons_self, id⟩
  | .seq items =>
    simp only [Template.parts, List.forall_mem_cons] at ht
    exact (buildItems_twin hasks items ht.2 hc).bind fun xs ys h => .done ⟨alike_seq h, fun h => h _⟩
  | .text pieces =>
    simp only [Template.parts, List.forall_mem_cons] at ht
    refine (buildPieces_twin hasks pieces ht.2 hc).bind fun s _ heq => ?_
    subst heq
    exact .done ⟨alike_text s, fun h => h _⟩
  | .recase op inner =>
    simp only [Template.parts, List.forall_mem_cons] at ht
    refine (build_twin hasks inner ht.2 hc).bind fun x y h => ?_
    refine (needText_twin h.1).bind fun s _ heq => ?_
    subst heq
    exact .done ⟨alike_text _, fun h => h _⟩
  | .length inner =>
    simp only [Template.parts, List.forall_mem_cons] at ht
    refine (build_twin hasks inner ht.2 hc).bind fun x y h => ?_
    exact (needLength_twin h.1).mono (fun _ _ => id) fun _ _ h => ⟨h.1, fun _ => h.2⟩
  | .apply head args =>
    simp only [Template.parts, List.forall_mem_cons] at ht
    refine (buildAll_twin hasks args ht.2 hc).bind fun xs ys h => .done ⟨?_, fun h => h _⟩
    exact like.join (.apply head h) nofun
  | .function kind receiver params result =>
    simp only [Template.parts, List.forall_mem_cons, List.forall_mem_append] at ht
    refine (buildOption_twin hasks receiver ht.2.1.1 hc).bind fun r r' hreceiver => ?_
    refine (build_twin hasks params ht.2.1.2 hc).bind fun p p' hparams => ?_
    refine (needSeq_twin hparams.1).bind fun xs ys hitems => ?_
    refine (build_twin hasks result ht.2.2 hc).bind fun v v' hresult => .done ⟨?_, fun h => h _⟩
    exact like.join (.function kind hreceiver hitems hresult.1) nofun
  | .mapFields source key filter value readonly optional =>
    simp only [Template.parts, List.forall_mem_cons, List.forall_mem_append] at ht
    obtain ⟨⟨hinOrder, hsettled⟩, ⟨⟨hsource, hkey⟩, hfilter⟩, hvalue⟩ := ht
    refine (build_twin hasks source hsource hc).bind fun x y h => ?_
    refine (needComposite_twin hinOrder h.1).bind fun xs ys hfields => ?_
    have hmaps := foldlM_mapField_twin readonly optional
      (fun c c' hc => holdsIfAny_twin hasks filter hsettled hfilter hc)
      (fun c c' hc => buildOption_twin hasks key hkey hc)
      (fun c c' hc => (build_twin hasks value hvalue hc).mono (fun _ _ => id) fun _ _ h => h.1)
      hc (.nil like) hfields
    exact hmaps.bind fun xs ys h => .done ⟨like.joinFields hinOrder h.distinct h.alike, fun h => h _⟩
  | .reduce inner =>
    simp only [Template.parts, List.forall_mem_cons] at ht
    refine (build_twin hasks inner ht.2 hc).bind fun x y h => ?_
    exact .ask (hasks.self ht.1 x y h.1) fun _ _ h => .done ⟨h, fun h => h _⟩
  | .call rule inner =>
    simp only [Template.parts, List.forall_mem_cons, List.forall_mem_append] at ht
    refine (build_twin hasks inner ht.2.2 hc).bind fun x y h => ?_
    have hsuits : like.Suits rule := ⟨ht.1, fun part hpart => (ht.2.1 part hpart).mono⟩
    exact .ask (hasks.call rule x y hsuits h.1) fun _ _ h => .done ⟨h, fun h => h _⟩
  | .undefined reason => exact .fail _
termination_by structural template

theorem buildItems_twin (hasks : like.Asks selfs asks) (items : List (SeqItem Template))
    (ht : ∀ part ∈ Template.partsItems items, like.SuitsPart selfs part) {c c' : Captures}
    (hc : like.Captured [] c c') :
    like.Twin asks (List.Forall₂ like.alike) (Template.buildItems decls items c)
      (Template.buildItems decls items c') := by
  match items with
  | [] => exact .done .nil
  | .element template :: rest =>
    simp only [Template.partsItems, List.forall_mem_append] at ht
    refine (build_twin hasks template ht.1 hc).bind fun x y h => ?_
    exact (buildItems_twin hasks rest ht.2 hc).bind fun xs ys hrest => .done (.cons h.1 hrest)
  | .splice template :: rest =>
    simp only [Template.partsItems, List.forall_mem_append] at ht
    refine (build_twin hasks template ht.1 hc).bind fun x y h => ?_
    refine (needSeq_twin h.1).bind fun items items' hitems => ?_
    refine (buildItems_twin hasks rest ht.2 hc).bind fun xs ys hrest => .done ?_
    rw [joinItems_eq, joinItems_eq]
    exact List.rel_append hitems hrest
termination_by structural items

theorem buildPieces_twin (hasks : like.Asks selfs asks) (pieces : List (TextPiece Template))
    (ht : ∀ part ∈ Template.partsPieces pieces, like.SuitsPart selfs part) {c c' : Captures}
    (hc : like.Captured [] c c') :
    like.Twin asks Eq (Template.buildPieces decls pieces c) (Template.buildPieces decls pieces c') := by
  match pieces with
  | [] => exact .done rfl
  | .literal s :: rest =>
    exact (buildPieces_twin hasks rest ht hc).bind fun t t' h => .done (h ▸ rfl)
  | .insert template :: rest =>
    simp only [Template.partsPieces, List.forall_mem_append] at ht
    refine (build_twin hasks template ht.1 hc).bind fun x y h => ?_
    refine (needFragment_twin h.1).bind fun s s' hs => ?_
    exact (buildPieces_twin hasks rest ht.2 hc).bind fun t t' ht => .done (by rw [hs, ht])
termination_by structural pieces

theorem buildAll_twin (hasks : like.Asks selfs asks) (templates : List Template)
    (ht : ∀ part ∈ Template.partsAll templates, like.SuitsPart selfs part) {c c' : Captures}
    (hc : like.Captured [] c c') :
    like.Twin asks (List.Forall₂ like.alike) (Template.buildAll decls templates c)
      (Template.buildAll decls templates c') := by
  match templates with
  | [] => exact .done .nil
  | template :: rest =>
    simp only [Template.partsAll, List.forall_mem_append] at ht
    refine (build_twin hasks template ht.1 hc).bind fun x y h => ?_
    exact (buildAll_twin hasks rest ht.2 hc).bind fun xs ys hrest => .done (.cons h.1 hrest)
termination_by structural templates

theorem buildOption_twin (hasks : like.Asks selfs asks) (template : Option Template)
    (ht : ∀ part ∈ Template.partsOption template, like.SuitsPart selfs part) {c c' : Captures}
    (hc : like.Captured [] c c') :
    like.Twin asks (Option.Rel like.alike) (Template.buildOption decls template c)
      (Template.buildOption decls template c') := by
  match template with
  | none => exact .done .none
  | some template => exact (build_twin hasks template ht hc).bind fun x y h => .done (.some h.1)
termination_by structural template

/-- A guard that compares with settled terms holds for both captures or for neither. -/
theorem holds_twin (hasks : like.Asks selfs asks) (guard : Guard) (hsettled : like.SettledGuard guard)
    (hg : ∀ part ∈ guard.parts, like.SuitsPart selfs part) {c c' : Captures}
    (hc : like.Captured [] c c') :
    like.Twin asks Eq (guard.holds decls c) (guard.holds decls c') := by
  match guard with
  | .equal left right =>
    simp only [Guard.parts, List.forall_mem_append] at hg
    refine (build_twin hasks left hg.1 hc).bind fun x x' hx => ?_
    refine (build_twin hasks right hg.2 hc).bind fun y y' hy => .done ?_
    have hone : like.settled x ∨ like.settled y := hsettled.imp hx.2 hy.2
    rw [Declarations.equivalent, Declarations.equivalent, like.fits hone hx.1 hy.1,
      like.fits hone.symm hy.1 hx.1]
  | .fits sub sup =>
    simp only [Guard.parts, List.forall_mem_append] at hg
    refine (build_twin hasks sub hg.1 hc).bind fun x x' hx => ?_
    refine (build_twin hasks sup hg.2 hc).bind fun y y' hy => .done ?_
    exact like.fits (hsettled.imp hx.2 hy.2) hx.1 hy.1
  | .negation inner =>
    exact (holds_twin hasks inner hsettled hg hc).bind fun b b' h => .done (h ▸ rfl)
  | .all guards => exact allHold_twin hasks guards hsettled hg hc
termination_by structural guard

theorem allHold_twin (hasks : like.Asks selfs asks) (guards : List Guard)
    (hsettled : like.SettledGuards guards)
    (hg : ∀ part ∈ Guard.partsAll guards, like.SuitsPart selfs part) {c c' : Captures}
    (hc : like.Captured [] c c') :
    like.Twin asks Eq (Guard.allHold decls guards c) (Guard.allHold decls guards c') := by
  match guards with
  | [] => exact .done rfl
  | guard :: rest =>
    simp only [Guard.partsAll, List.forall_mem_append] at hg
    refine (holds_twin hasks guard hsettled.1 hg.1 hc).bind fun b b' h => ?_
    subst h
    cases b with
    | false => exact .done rfl
    | true => exact allHold_twin hasks rest hsettled.2 hg.2 hc
termination_by structural guards

theorem holdsIfAny_twin (hasks : like.Asks selfs asks) (guard : Option Guard)
    (hsettled : ∀ g ∈ guard, like.SettledGuard g)
    (hg : ∀ part ∈ Guard.partsOption guard, like.SuitsPart selfs part) {c c' : Captures}
    (hc : like.Captured [] c c') :
    like.Twin asks Eq (Guard.holdsIfAny decls guard c) (Guard.holdsIfAny decls guard c') := by
  match guard with
  | none => exact .done rfl
  | some guard => exact holds_twin hasks guard (hsettled guard rfl) hg hc
termination_by structural guard

end

/-! ## Steps -/

variable {finals : Step → Step → Prop}

theorem take_twin (hasks : like.Asks selfs asks)
    (hdone : ∀ x y, like.alike x y → finals (.done x) (.done y))
    (hagain : selfs → ∀ x y, like.alike x y → finals (.again x) (.again y)) (arm : Arm)
    (ht : ∀ part ∈ arm.body.parts, like.SuitsPart selfs part) {c c' : Captures}
    (hc : like.Captured [] c c') :
    like.Twin asks finals (arm.take decls c) (arm.take decls c') := by
  obtain ⟨pattern, guard, body⟩ := arm
  have hbody := (build_twin hasks body ht hc).bind fun x y h => .done (hdone x y h.1)
  cases body with
  | reduce inner =>
    simp only [Template.parts, List.forall_mem_cons] at ht
    exact (build_twin hasks inner ht.2 hc).bind fun x y h => .done (hagain ht.1 x y h.1)
  | _ => exact hbody

/-- On the two terms the arm is taken or not alike, and gives related steps. -/
def ArmTwin (like : Likeness decls) (asks : Request → Request → Prop)
    (finals : Step → Step → Prop) (a b : Term) (arm : Arm) : Prop :=
  Option.Rel
    (fun c c' => like.Twin asks Eq (Guard.holdsIfAny decls arm.guard c)
        (Guard.holdsIfAny decls arm.guard c') ∧
      like.Twin asks finals (arm.take decls c) (arm.take decls c'))
    (arm.pattern.captures? decls a) (arm.pattern.captures? decls b)

theorem tryEach_twin {terminal : Terminal}
    (hterminal : like.Twin asks finals
      (.lift (terminal.result a) >>= fun result => .done (.done result))
      (.lift (terminal.result b) >>= fun result => .done (.done result)))
    {arms : List Arm} (harms : ∀ arm ∈ arms, like.ArmTwin asks finals a b arm) :
    like.Twin asks finals (Arm.tryEach decls terminal a arms) (Arm.tryEach decls terminal b arms) := by
  induction arms with
  | nil => exact hterminal
  | cons arm rest ih =>
    obtain ⟨harm, hrest⟩ := List.forall_mem_cons.1 harms
    have hlater := ih hrest
    rw [Arm.tryEach, Arm.tryEach]
    refine .note _ ?_
    unfold ArmTwin at harm
    generalize arm.pattern.captures? decls a = x, arm.pattern.captures? decls b = y at harm
    cases harm with
    | none => exact hlater
    | some h =>
      refine h.1.bind fun holds _ heq => ?_
      subst heq
      cases holds with
      | false => exact hlater
      | true => exact .note _ h.2

theorem terminal_twin (terminal : Terminal) (ht : ∀ term ∈ terminal.terms, like.alike term term)
    (hdone : ∀ x y, like.alike x y → finals (.done x) (.done y)) (hab : like.alike a b) :
    like.Twin asks finals (.lift (terminal.result a) >>= fun result => .done (.done result))
      (.lift (terminal.result b) >>= fun result => .done (.done result)) := by
  cases terminal with
  | input => exact .done (hdone _ _ hab)
  | term result => exact .done (hdone _ _ (ht result List.mem_cons_self))
  | unmatched => exact .done (hdone _ _ (alike_atom _))
  | undefined reason => exact .fail _

theorem arm_twin (hasks : like.Asks selfs asks)
    (hdone : ∀ x y, like.alike x y → finals (.done x) (.done y))
    (hagain : selfs → ∀ x y, like.alike x y → finals (.again x) (.again y)) {arm : Arm}
    (hpattern : arm.pattern.Linear) (hsettled : ∀ guard ∈ arm.guard, like.SettledGuard guard)
    (ht : ∀ part ∈ arm.parts, like.SuitsPart selfs part) (hab : like.alike a b) :
    like.ArmTwin asks finals a b arm := by
  obtain ⟨pattern, guard, body⟩ := arm
  rw [Arm.parts, List.forall_mem_append] at ht
  have hcaptures := captures?_alike hpattern hab
  unfold ArmTwin
  generalize pattern.captures? decls a = x, pattern.captures? decls b = y at hcaptures
  cases hcaptures with
  | none => exact .none
  | some hc =>
    exact .some ⟨holdsIfAny_twin hasks guard hsettled ht.1 hc,
      take_twin hasks hdone hagain ⟨pattern, guard, body⟩ ht.2 hc⟩

theorem mem_partsAll {part : Template} {arm : Arm} {arms : List Arm} (harm : arm ∈ arms)
    (hpart : part ∈ arm.parts) : part ∈ Arm.partsAll arms := by
  induction harm with
  | head => exact List.mem_append_left _ hpart
  | tail _ _ ih => exact List.mem_append_right _ ih

/-- A step of a rule that treats terms that are alike the same. -/
theorem step_twin {admits : Rule → Term → Term → Prop}
    (hadmits : ∀ rule x y, like.Suits rule → like.alike x y → admits rule x y) {rule : Rule}
    (hrule : like.Suits rule) (hab : like.alike a b) :
    (rule.step decls a).Twin like.alike (Request.Twin admits rule) (Step.Twin admits like.alike rule)
      (rule.step decls b) := by
  obtain ⟨name, arms, terminal, recursion⟩ := rule
  have hself : True → ∀ x y, like.alike x y → admits ⟨name, arms, terminal, recursion⟩ x y :=
    fun _ x y h => hadmits _ x y hrule h
  have hasks : like.Asks True (Request.Twin admits ⟨name, arms, terminal, recursion⟩) :=
    ⟨fun _ x y h => .self (hself trivial x y h), fun called x y hcalled h =>
      .call (hadmits called x y hcalled h)⟩
  refine tryEach_twin (terminal_twin terminal hrule.own.terminal (fun _ _ h => .done h) hab) ?_
  intro arm harm
  obtain ⟨hpattern, hsettled⟩ := hrule.own.arms arm harm
  exact arm_twin hasks (fun _ _ h => .done h) (fun hs x y h => .again (hself hs x y h)) hpattern
    hsettled (fun part hpart => hrule.parts part (mem_partsAll harm hpart)) hab

end Likeness

end Reshape
