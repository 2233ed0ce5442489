import Reshape.Proofs.Pattern.Hereditary
import Reshape.Proofs.Rule.Normal
import Reshape.Reduction.Step

/-!
# What rules make of terms

If a property is inherited by parts, and a rule's literals and the terms that it is given have it,
so have all terms that the rule makes (`Rule.step_meets`): those that it feeds back or hands to
other rules, as long as it is answered with such terms, and its results.
-/

namespace Reshape

/-- As long as its requests are answered as the conditions say, the plan asks and gives as they say. -/
inductive Plan.Meets {α : Type} (asks : Request → Prop) (answers : Term → Prop) (gives : α → Prop) :
    Plan α → Prop where
  | done {value : α} : gives value → Plan.Meets asks answers gives (.done value)
  | fail {failure : Failure} : Plan.Meets asks answers gives (.fail failure)
  | note {n : Note} {rest : Plan α} :
      Plan.Meets asks answers gives rest → Plan.Meets asks answers gives (.note n rest)
  | ask {request : Request} {next : Term → Plan α} :
      asks request → (∀ term, answers term → Plan.Meets asks answers gives (next term)) →
      Plan.Meets asks answers gives (.ask request next)

namespace Plan.Meets

variable {α β : Type} {asks : Request → Prop} {answers : Term → Prop} {gives : α → Prop}
  {final : β → Prop} {plan : Plan α}

theorem pure {value : α} (h : gives value) : (Pure.pure value : Plan α).Meets asks answers gives :=
  .done h

theorem bind {f : α → Plan β} (h : plan.Meets asks answers gives)
    (hf : ∀ value, gives value → (f value).Meets asks answers final) :
    (plan >>= f).Meets asks answers final := by
  induction h with
  | done hvalue => exact hf _ hvalue
  | fail => exact .fail
  | note _ ih => exact .note ih
  | ask hrequest _ ih => exact .ask hrequest ih

theorem mono {gives' : α → Prop} (h : plan.Meets asks answers gives)
    (hgives : ∀ value, gives value → gives' value) : plan.Meets asks answers gives' := by
  induction h with
  | done hvalue => exact .done (hgives _ hvalue)
  | fail => exact .fail
  | note _ ih => exact .note ih
  | ask hrequest _ ih => exact .ask hrequest ih

theorem lift {o : Except Failure α} (h : ∀ value, o = .ok value → gives value) :
    (Plan.lift o).Meets asks answers gives := by
  cases o with
  | ok value => exact .done (h value rfl)
  | error failure => exact .fail

theorem foldlM {f : β → α → Plan β} {xs : List α} {acc : β} (hacc : final acc)
    (h : ∀ acc, final acc → ∀ x ∈ xs, (f acc x).Meets asks answers final) :
    (xs.foldlM f acc).Meets asks answers final := by
  induction xs generalizing acc with
  | nil => exact .done hacc
  | cons x xs ih =>
    rw [List.foldlM_cons]
    refine (h acc hacc x List.mem_cons_self).bind fun acc hacc => ?_
    exact ih hacc fun acc hacc y hy => h acc hacc y (List.mem_cons_of_mem _ hy)

end Plan.Meets

/-- The terms that a template puts into what it builds, except for those of its parts. -/
def Template.literals : Template → List Term
  | .literal term => [term]
  | .call rule _ => rule.terminal.terms
  | _ => []

/-- The terms that a rule, and the rules that it calls, put into what they build. -/
def Rule.literals (rule : Rule) : List Term :=
  rule.terminal.terms ++ rule.parts.flatMap Template.literals

/-- The property holds of all literals in the templates. -/
def Template.LiteralsAll (P : Term → Prop) (parts : List Template) : Prop :=
  ∀ part ∈ parts, ∀ term ∈ part.literals, P term

theorem Rule.forall_literals_iff {P : Term → Prop} {rule : Rule} :
    (∀ term ∈ rule.literals, P term) ↔
      (∀ term ∈ rule.terminal.terms, P term) ∧ Template.LiteralsAll P rule.parts := by
  rw [literals, List.forall_mem_append, List.forall_mem_flatMap]
  rfl

/-- A rule puts none but its own terms, and those of the rules that it calls, into what it builds. -/
theorem Rule.literals_subset_terms (rule : Rule) : rule.literals ⊆ rule.terms := by
  have hterminal (other : Rule) : other.terminal.terms ⊆ other.ownTerms :=
    List.subset_append_left _ _
  have hparts (part : Template) : part.literals ⊆ part.ownTerms := by
    cases part with
    | call called inner => exact hterminal called
    | _ => exact List.Subset.refl _
  intro term hterm
  rcases List.mem_append.1 hterm with hmem | hmem
  · exact List.mem_append_left _ (hterminal rule hmem)
  · obtain ⟨part, hpart, hmem⟩ := List.mem_flatMap.1 hmem
    exact List.mem_append_right _ (List.mem_flatMap.2 ⟨part, hpart, hparts part hmem⟩)

/-- The property holds of the term that is handed over, and of the literals of the rule that is
called. -/
def Request.All (P : Term → Prop) : Request → Prop
  | .self next => P next
  | .call rule input => (∀ term ∈ rule.literals, P term) ∧ P input

/-- The property holds of the term that the step gives. -/
def Step.All (P : Term → Prop) : Step → Prop
  | .done result => P result
  | .again next => P next

section

variable {decls : Declarations} {P : Term → Prop} {asks : Request → Prop} {answers : Term → Prop}
  {captures : Captures}

/-! ## Terms of one kind -/

theorem needSeq_meets (hP : decls.Hereditary P) {term : Term} (h : P term) :
    (Plan.lift term.needSeq).Meets asks answers fun items => ∀ item ∈ items, P item :=
  .lift fun items heq => by
    cases term <;> cases heq
    exact hP.seq.1 h

theorem needComposite_meets (hP : decls.Hereditary P) {term : Term} (h : P term) :
    (Plan.lift term.needComposite).Meets asks answers fun fields => ∀ field ∈ fields, P field.value :=
  .lift fun fields heq => by
    cases term <;> cases heq
    exact hP.composite.1 h

theorem needLength_meets (hP : decls.Hereditary P) (term : Term) :
    (Plan.lift term.needLength).Meets asks answers P :=
  .lift fun count heq => by
    cases term <;> cases heq <;> exact hP.atom _

theorem lookup_meets (h : captures.All P) (name : String) :
    (Plan.lift (captures.lookup name)).Meets asks answers P :=
  .lift fun term heq => by
    unfold Captures.lookup at heq
    split at heq <;> cases heq
    exact h name term ‹_›

/-! ## Templates -/

/-- The plan asks for terms with the property, as long as it is answered with such terms. -/
abbrev Plan.Within (P : Term → Prop) {α : Type} (gives : α → Prop) (plan : Plan α) : Prop :=
  plan.Meets (Request.All P) P gives

/-- Mapping a field keeps the property of all values. -/
theorem mapField_meets (hP : decls.Hereditary P) {filter : Captures → Plan Bool}
    {key : Captures → Plan (Option Term)} {value : Captures → Plan Term} {readonly optional : FlagEdit}
    (hfilter : ∀ {inner : Captures}, inner.All P → (filter inner).Within P fun _ => True)
    (hkey : ∀ {inner : Captures}, inner.All P → (key inner).Within P fun _ => True)
    (hvalue : ∀ {inner : Captures}, inner.All P → (value inner).Within P P)
    (hcaptures : captures.All P) {mapped : Composite} (hmapped : ∀ field ∈ mapped, P field.value)
    {field : Entry Term} (hfield : P field.value) :
    (mapField decls filter key value readonly optional captures mapped field).Within P
      fun fields => ∀ field ∈ fields, P field.value := by
  have hinner := hcaptures.forField (hP.text field.key) hfield
  refine (hfilter hinner).bind fun holds _ => ?_
  split
  · refine (hkey hinner).bind fun built _ => ?_
    refine (Plan.Meets.lift fun _ _ => trivial).bind fun newKey _ => ?_
    cases newKey with
    | none => exact .pure hmapped
    | some newKey =>
      refine (hvalue hinner).bind fun newValue hnew => .pure ?_
      exact Composite.forall_mem_insert hnew hmapped
  · exact .pure hmapped

mutual

/-- A template builds terms with the property from captures with the property, if its literals
have it. -/
theorem Template.build_meets (hP : decls.Hereditary P) (template : Template) {captures : Captures}
    (hliterals : Template.LiteralsAll P template.parts) (hcaptures : captures.All P) :
    (template.build decls captures).Within P P := by
  match template with
  | .capture name => exact lookup_meets hcaptures name
  | .literal term => exact .pure (hliterals _ List.mem_cons_self term List.mem_cons_self)
  | .seq items =>
    obtain ⟨-, hitems⟩ := List.forall_mem_cons.1 hliterals
    exact (Template.buildItems_meets hP items hitems hcaptures).bind fun _ h => .pure (hP.seq.2 h)
  | .text pieces =>
    obtain ⟨-, hpieces⟩ := List.forall_mem_cons.1 hliterals
    exact (Template.buildPieces_meets hP pieces hpieces hcaptures).bind fun _ _ => .pure (hP.text _)
  | .recase op inner =>
    obtain ⟨-, hinner⟩ := List.forall_mem_cons.1 hliterals
    refine (Template.build_meets hP inner hinner hcaptures).bind fun term _ => ?_
    exact (Plan.Meets.lift fun _ _ => trivial).bind fun _ _ => .pure (hP.text _)
  | .length inner =>
    obtain ⟨-, hinner⟩ := List.forall_mem_cons.1 hliterals
    exact (Template.build_meets hP inner hinner hcaptures).bind fun _ _ => needLength_meets hP _
  | .apply head args =>
    obtain ⟨-, hargs⟩ := List.forall_mem_cons.1 hliterals
    exact (Template.buildAll_meets hP args hargs hcaptures).bind fun _ h => .pure (hP.apply.2 h)
  | .function kind receiver params result =>
    obtain ⟨-, hparts⟩ := List.forall_mem_cons.1 hliterals
    rw [List.forall_mem_append, List.forall_mem_append] at hparts
    refine (Template.buildOption_meets hP receiver hparts.1.1 hcaptures).bind fun _ hreceiver => ?_
    refine (Template.build_meets hP params hparts.1.2 hcaptures).bind fun _ hparams => ?_
    refine (needSeq_meets hP (hP.resolve hparams)).bind fun _ hitems => ?_
    refine (Template.build_meets hP result hparts.2 hcaptures).bind fun _ hresult => ?_
    exact .pure (hP.function.2 ⟨hreceiver, hitems, hresult⟩)
  | .mapFields source key filter value readonly optional =>
    obtain ⟨-, hparts⟩ := List.forall_mem_cons.1 hliterals
    rw [List.forall_mem_append, List.forall_mem_append, List.forall_mem_append] at hparts
    obtain ⟨⟨⟨hsource, hkey⟩, hfilter⟩, hvalue⟩ := hparts
    refine (Template.build_meets hP source hsource hcaptures).bind fun term hterm => ?_
    refine (needComposite_meets hP (hP.resolve hterm)).bind fun fields hfields => ?_
    refine Plan.Meets.bind (.foldlM (List.forall_mem_nil _) fun mapped hmapped field hfield => ?_)
      fun mapped hmapped => .pure (hP.composite.2 hmapped)
    refine mapField_meets hP (fun hinner => Guard.holdsIfAny_meets hP filter hfilter hinner) ?_
      (fun hinner => Template.build_meets hP value hvalue hinner) hcaptures hmapped (hfields field hfield)
    exact fun hinner => (Template.buildOption_meets hP key hkey hinner).mono fun _ _ => trivial
  | .reduce inner =>
    obtain ⟨-, hinner⟩ := List.forall_mem_cons.1 hliterals
    refine (Template.build_meets hP inner hinner hcaptures).bind fun _ hterm => ?_
    exact .ask hterm fun _ hanswer => .done hanswer
  | .call rule inner =>
    obtain ⟨hterminal, hparts⟩ := List.forall_mem_cons.1 hliterals
    rw [List.forall_mem_append] at hparts
    refine (Template.build_meets hP inner hparts.2 hcaptures).bind fun _ hterm => ?_
    exact .ask ⟨Rule.forall_literals_iff.2 ⟨hterminal, hparts.1⟩, hterm⟩ fun _ hanswer => .done hanswer
  | .undefined reason => exact .fail
termination_by structural template

theorem Template.buildItems_meets (hP : decls.Hereditary P) (items : List (SeqItem Template))
    {captures : Captures} (hliterals : Template.LiteralsAll P (Template.partsItems items))
    (hcaptures : captures.All P) :
    (Template.buildItems decls items captures).Within P fun terms => ∀ term ∈ terms, P term := by
  match items with
  | [] => exact .pure (List.forall_mem_nil _)
  | .element template :: rest =>
    obtain ⟨hfirst, hrest⟩ := List.forall_mem_append.1 hliterals
    refine (Template.build_meets hP template hfirst hcaptures).bind fun term hterm => ?_
    refine (Template.buildItems_meets hP rest hrest hcaptures).bind fun terms hterms => ?_
    exact .pure (List.forall_mem_cons.2 ⟨hterm, hterms⟩)
  | .splice template :: rest =>
    obtain ⟨hfirst, hrest⟩ := List.forall_mem_append.1 hliterals
    refine (Template.build_meets hP template hfirst hcaptures).bind fun term hterm => ?_
    refine (needSeq_meets hP (hP.resolve hterm)).bind fun items hitems => ?_
    refine (Template.buildItems_meets hP rest hrest hcaptures).bind fun terms hterms => ?_
    rw [joinItems_eq]
    exact .pure (List.forall_mem_append.2 ⟨hitems, hterms⟩)
termination_by structural items

theorem Template.buildPieces_meets (hP : decls.Hereditary P) (pieces : List (TextPiece Template))
    {captures : Captures} (hliterals : Template.LiteralsAll P (Template.partsPieces pieces))
    (hcaptures : captures.All P) :
    (Template.buildPieces decls pieces captures).Within P fun _ => True := by
  match pieces with
  | [] => exact .pure trivial
  | .literal s :: rest =>
    exact (Template.buildPieces_meets hP rest hliterals hcaptures).bind fun _ _ => .pure trivial
  | .insert template :: rest =>
    obtain ⟨hfirst, hrest⟩ := List.forall_mem_append.1 hliterals
    refine (Template.build_meets hP template hfirst hcaptures).bind fun _ _ => ?_
    refine (Plan.Meets.lift fun _ _ => trivial).bind fun _ _ => ?_
    exact (Template.buildPieces_meets hP rest hrest hcaptures).bind fun _ _ => .pure trivial
termination_by structural pieces

theorem Template.buildAll_meets (hP : decls.Hereditary P) (templates : List Template)
    {captures : Captures} (hliterals : Template.LiteralsAll P (Template.partsAll templates))
    (hcaptures : captures.All P) :
    (Template.buildAll decls templates captures).Within P fun terms => ∀ term ∈ terms, P term := by
  match templates with
  | [] => exact .pure (List.forall_mem_nil _)
  | template :: rest =>
    obtain ⟨hfirst, hrest⟩ := List.forall_mem_append.1 hliterals
    refine (Template.build_meets hP template hfirst hcaptures).bind fun term hterm => ?_
    refine (Template.buildAll_meets hP rest hrest hcaptures).bind fun terms hterms => ?_
    exact .pure (List.forall_mem_cons.2 ⟨hterm, hterms⟩)
termination_by structural templates

theorem Template.buildOption_meets (hP : decls.Hereditary P) (template : Option Template)
    {captures : Captures} (hliterals : Template.LiteralsAll P (Template.partsOption template))
    (hcaptures : captures.All P) :
    (Template.buildOption decls template captures).Within P fun built => ∀ term ∈ built, P term := by
  match template with
  | none => exact .pure nofun
  | some template =>
    refine (Template.build_meets hP template hliterals hcaptures).bind fun term hterm => .pure ?_
    rintro _ ⟨⟩
    exact hterm
termination_by structural template

theorem Guard.holds_meets (hP : decls.Hereditary P) (guard : Guard) {captures : Captures}
    (hliterals : Template.LiteralsAll P guard.parts) (hcaptures : captures.All P) :
    (guard.holds decls captures).Within P fun _ => True := by
  match guard with
  | .equal left right =>
    obtain ⟨hleft, hright⟩ := List.forall_mem_append.1 hliterals
    refine (Template.build_meets hP left hleft hcaptures).bind fun _ _ => ?_
    exact (Template.build_meets hP right hright hcaptures).bind fun _ _ => .pure trivial
  | .fits sub sup =>
    obtain ⟨hsub, hsup⟩ := List.forall_mem_append.1 hliterals
    refine (Template.build_meets hP sub hsub hcaptures).bind fun _ _ => ?_
    exact (Template.build_meets hP sup hsup hcaptures).bind fun _ _ => .pure trivial
  | .negation inner => exact (Guard.holds_meets hP inner hliterals hcaptures).bind fun _ _ => .pure trivial
  | .all guards => exact Guard.allHold_meets hP guards hliterals hcaptures
termination_by structural guard

theorem Guard.allHold_meets (hP : decls.Hereditary P) (guards : List Guard) {captures : Captures}
    (hliterals : Template.LiteralsAll P (Guard.partsAll guards)) (hcaptures : captures.All P) :
    (Guard.allHold decls guards captures).Within P fun _ => True := by
  match guards with
  | [] => exact .pure trivial
  | guard :: rest =>
    obtain ⟨hfirst, hrest⟩ := List.forall_mem_append.1 hliterals
    refine (Guard.holds_meets hP guard hfirst hcaptures).bind fun holds _ => ?_
    split
    · exact Guard.allHold_meets hP rest hrest hcaptures
    · exact .pure trivial
termination_by structural guards

theorem Guard.holdsIfAny_meets (hP : decls.Hereditary P) (guard : Option Guard) {captures : Captures}
    (hliterals : Template.LiteralsAll P (Guard.partsOption guard)) (hcaptures : captures.All P) :
    (Guard.holdsIfAny decls guard captures).Within P fun _ => True := by
  match guard with
  | none => exact .pure trivial
  | some guard => exact Guard.holds_meets hP guard hliterals hcaptures
termination_by structural guard

end

/-! ## Steps -/

theorem Arm.take_meets (hP : decls.Hereditary P) (arm : Arm)
    (hliterals : Template.LiteralsAll P arm.body.parts) (hcaptures : captures.All P) :
    (arm.take decls captures).Within P (Step.All P) := by
  unfold Arm.take
  split
  · rename_i inner hbody
    rw [hbody] at hliterals
    obtain ⟨-, hinner⟩ := List.forall_mem_cons.1 hliterals
    exact (Template.build_meets hP inner hinner hcaptures).bind fun _ h => .pure h
  · exact (Template.build_meets hP arm.body hliterals hcaptures).bind fun _ h => .pure h

theorem Arm.tryEach_meets (hP : decls.Hereditary P) {terminal : Terminal} {input : Term}
    (hterminal : ∀ term ∈ terminal.terms, P term) (hinput : P input) (arms : List Arm)
    (hliterals : Template.LiteralsAll P (Arm.partsAll arms)) :
    (Arm.tryEach decls terminal input arms).Within P (Step.All P) := by
  induction arms with
  | nil =>
    refine (Plan.Meets.lift fun result heq => ?_).bind fun _ h => .pure h
    cases terminal <;> cases heq
    · exact hinput
    · exact hterminal _ List.mem_cons_self
    · exact hP.atom _
  | cons arm rest ih =>
    obtain ⟨pattern, guard, body⟩ := arm
    obtain ⟨hfirst, hrest⟩ := List.forall_mem_append.1 hliterals
    obtain ⟨hguard, hbody⟩ := List.forall_mem_append.1 hfirst
    refine .note ?_
    split
    · exact ih hrest
    · rename_i captures hmatch
      have hcaptures := Pattern.all_of_captures? hP hinput hmatch
      refine (Guard.holdsIfAny_meets hP guard hguard hcaptures).bind fun holds _ => ?_
      split
      · exact .note (Arm.take_meets hP ⟨pattern, guard, body⟩ hbody hcaptures)
      · exact ih hrest

/-- One step of a rule makes terms with the property of one that has it. -/
theorem Rule.step_meets (hP : decls.Hereditary P) {rule : Rule} {input : Term}
    (hliterals : ∀ term ∈ rule.literals, P term) (hinput : P input) :
    (rule.step decls input).Within P (Step.All P) := by
  obtain ⟨name, arms, terminal, recursion⟩ := rule
  obtain ⟨hterminal, hparts⟩ := Rule.forall_literals_iff.1 hliterals
  exact Arm.tryEach_meets hP hterminal hinput arms hparts

end

end Reshape
