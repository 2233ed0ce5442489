import Reshape.Proofs.Pattern.Binding
import Reshape.Proofs.Rule.Parts
import Reshape.Reduction.Step

/-!
# What valid rules ask for

A step of a valid rule fails only on a term of the wrong kind or a result that is
undefined, since its captures are bound; and it asks for nothing that validation has not
looked at (`Rule.step_sound`): it feeds a term back only if the rule is recursive, and
calls only valid rules that stand inside the rule. Both are said of plans: a plan abides
by conditions on its failures, its notes, its requests and its value, whatever the answers
are.
-/

namespace Reshape

/-- The plan fails, notes, asks and gives a value only as the conditions say, whatever the
answers are. -/
inductive Plan.Abides {α : Type} (fails : Failure → Prop) (notes : Note → Prop)
    (asks : Request → Prop) (gives : α → Prop) : Plan α → Prop where
  | done {value : α} : gives value → Plan.Abides fails notes asks gives (.done value)
  | fail {failure : Failure} : fails failure → Plan.Abides fails notes asks gives (.fail failure)
  | note {n : Note} {rest : Plan α} :
      notes n → Plan.Abides fails notes asks gives rest →
      Plan.Abides fails notes asks gives (.note n rest)
  | ask {request : Request} {next : Term → Plan α} :
      asks request → (∀ term, Plan.Abides fails notes asks gives (next term)) →
      Plan.Abides fails notes asks gives (.ask request next)

namespace Plan.Abides

variable {α β : Type} {fails : Failure → Prop} {notes notes' : Note → Prop}
  {asks asks' : Request → Prop} {gives gives' : α → Prop} {final : β → Prop} {plan : Plan α}

theorem bind {f : α → Plan β} (h : plan.Abides fails notes asks gives)
    (hf : ∀ value, gives value → (f value).Abides fails notes asks final) :
    (plan >>= f).Abides fails notes asks final := by
  induction h with
  | done hvalue => exact hf _ hvalue
  | fail hfailure => exact .fail hfailure
  | note hnote _ ih => exact .note hnote ih
  | ask hrequest _ ih => exact .ask hrequest ih

theorem pure (value : α) : (Pure.pure value : Plan α).Abides fails notes asks fun _ => True :=
  .done trivial

theorem mono (h : plan.Abides fails notes asks gives) (hnotes : ∀ n, notes n → notes' n)
    (hasks : ∀ request, asks request → asks' request)
    (hgives : ∀ value, gives value → gives' value) : plan.Abides fails notes' asks' gives' := by
  induction h with
  | done hvalue => exact .done (hgives _ hvalue)
  | fail hfailure => exact .fail hfailure
  | note hnote _ ih => exact .note (hnotes _ hnote) ih
  | ask hrequest _ ih => exact .ask (hasks _ hrequest) ih

theorem lift {o : Except Failure α} (h : ∀ failure, o = .error failure → fails failure) :
    (Plan.lift o).Abides fails notes asks fun _ => True := by
  cases o with
  | ok value => exact .done trivial
  | error failure => exact .fail (h failure rfl)

/-- What needs a term of some kind fails on others, which the conditions have to allow. -/
theorem need {o : Except Failure α} {expected : String} {found : Term.Kind}
    (hkind : ∀ expected found, fails ⟨.wrongKind expected found, []⟩)
    (h : ∀ {failure}, o = .error failure → failure = ⟨.wrongKind expected found, []⟩) :
    (Plan.lift o).Abides fails notes asks fun _ => True := by
  refine .lift fun failure hfailure => ?_
  rw [h hfailure]
  exact hkind expected found

theorem foldlM {f : β → α → Plan β} (h : ∀ acc x, (f acc x).Abides fails notes asks fun _ => True)
    (xs : List α) (acc : β) : (xs.foldlM f acc).Abides fails notes asks fun _ => True := by
  induction xs generalizing acc with
  | nil => exact .done trivial
  | cons x xs ih => exact (h acc x).bind fun acc _ => ih acc

end Plan.Abides

/-- Mapping a field abides by what its filter, its key and its value abide by. -/
theorem mapField_abides {fails : Failure → Prop} {notes : Note → Prop} {asks : Request → Prop}
    (hkind : ∀ expected found, fails ⟨.wrongKind expected found, []⟩) {decls : Declarations}
    {filter : Captures → Plan Bool} {key : Captures → Plan (Option Term)}
    {value : Captures → Plan Term} {readonly optional : FlagEdit} {captures : Captures}
    {field : Entry Term}
    (hfilter : (filter (captures.forField field.key field.value)).Abides fails notes asks fun _ => True)
    (hkey : (key (captures.forField field.key field.value)).Abides fails notes asks fun _ => True)
    (hvalue : (value (captures.forField field.key field.value)).Abides fails notes asks fun _ => True)
    (mapped : Composite) :
    (mapField decls filter key value readonly optional captures mapped field).Abides fails notes asks
      fun _ => True := by
  refine hfilter.bind fun holds _ => ?_
  split
  · refine hkey.bind fun built _ => (Plan.Abides.lift fun failure h => ?_).bind fun newKey _ => ?_
    · obtain ⟨term, -, rfl⟩ := Term.needKey_eq_error h
      exact hkind _ _
    · cases newKey with
      | none => exact .done trivial
      | some newKey => exact hvalue.bind fun newValue _ => .done trivial
  · exact .done trivial

/-- Whether a term is at fault: it is of the wrong kind, or has no result. -/
def Cause.blamesTerm : Cause → Bool
  | .wrongKind .. | .undefinedArithmetic _ => true
  | _ => false

/-- What templates with these parts ask for: to feed a term back only if they re-enter
the rule, and to call only valid rules inside them. -/
def Request.Within (reenters : Bool) (parts : List Template) : Request → Prop
  | .self _ => reenters = true
  | .call called _ => called.validate = .ok () ∧ called.Inside parts

theorem Request.Within.mono {reenters reenters' : Bool} {parts more : List Template}
    {request : Request} (h : request.Within reenters parts)
    (hreenters : reenters = true → reenters' = true) (hmore : parts.Sublist more) :
    request.Within reenters' more := by
  cases request with
  | self next => exact hreenters h
  | call called term => exact ⟨h.1, h.2.mono hmore⟩

/-- A plan of templates with these parts that validation has accepted. -/
abbrev Plan.Sound {α : Type} (reenters : Bool) (parts : List Template) (plan : Plan α) : Prop :=
  plan.Abides (·.cause.blamesTerm = true) (fun _ => True) (·.Within reenters parts) fun _ => True

namespace Plan.Sound

variable {α : Type} {reenters reenters' : Bool} {parts more : List Template} {plan : Plan α}

theorem mono (h : plan.Sound reenters parts) (hreenters : reenters = true → reenters' = true)
    (hmore : parts.Sublist more) : plan.Sound reenters' more :=
  Abides.mono h (fun _ => id) (fun _ hrequest => hrequest.mono hreenters hmore) fun _ => id

theorem need {o : Except Failure α} {expected : String} {found : Term.Kind}
    (h : ∀ {failure}, o = .error failure → failure = ⟨.wrongKind expected found, []⟩) :
    (Plan.lift o).Sound reenters parts :=
  Abides.need (fun _ _ => rfl) h

end Plan.Sound

/-! ## Valid templates -/

/-- All names in scope are bound. -/
def Captures.Cover (captures : Captures) (bound : List String) : Prop :=
  ∀ name ∈ bound, captures.contains name = true

/-- Mapping a field binds its key and its value as well. -/
theorem Captures.Cover.forField {captures : Captures} {bound : List String}
    (h : captures.Cover bound) (key : String) (value : Term) :
    (captures.forField key value).Cover (fieldScope bound) := by
  intro name hname
  show ((captures.forField key value).get? name).isSome = true
  rw [get?_forField]
  split
  · rfl
  · rename_i hvalue
    split
    · rfl
    · rename_i hkey
      rcases List.mem_cons.1 hname with rfl | hname
      · exact absurd rfl hkey
      · rcases List.mem_cons.1 hname with rfl | hname
        · exact absurd rfl hvalue
        · exact h name hname

theorem lookup_sound {captures : Captures} {bound : List String} {name : String}
    {reenters : Bool} {parts : List Template} (h : requireBound bound name = .ok ())
    (hcover : captures.Cover bound) : (Plan.lift (captures.lookup name)).Sound reenters parts := by
  refine .lift fun failure hfailure => ?_
  have hbound : name ∈ bound := by
    unfold requireBound at h
    split at h
    · rename_i hcontains
      exact List.contains_iff_mem.1 hcontains
    · cases h
  obtain ⟨term, hterm⟩ := Option.isSome_iff_exists.1 (hcover name hbound)
  cases hterm.symm.trans (Captures.lookup_eq_error hfailure).1

section

variable {decls : Declarations}

mutual

/-- A valid template asks only for what it is made of. -/
theorem Template.build_sound (template : Template) {bound : List String} {captures : Captures}
    (h : template.validate bound = .ok ()) (hcover : captures.Cover bound) :
    (template.build decls captures).Sound template.reenters template.parts := by
  match template with
  | .capture name => exact lookup_sound h hcover
  | .literal term => exact .pure _
  | .seq items =>
    refine ((Template.buildItems_sound items h hcover).mono id ?_).bind fun _ _ => .pure _
    simp [Template.parts]
  | .text pieces =>
    refine ((Template.buildPieces_sound pieces h hcover).mono id ?_).bind fun _ _ => .pure _
    simp [Template.parts]
  | .recase op inner =>
    refine ((Template.build_sound inner h hcover).mono id ?_).bind fun term _ => ?_
    · simp [Template.parts]
    exact (Plan.Sound.need Term.needText_eq_error).bind fun _ _ => .pure _
  | .length inner =>
    refine ((Template.build_sound inner h hcover).mono id ?_).bind fun term _ => ?_
    · simp [Template.parts]
    exact Plan.Sound.need Term.needLength_eq_error
  | .apply head args =>
    refine ((Template.buildAll_sound args h hcover).mono id ?_).bind fun _ _ => .pure _
    simp [Template.parts]
  | .function kind receiver params result =>
    obtain ⟨hreceiver, hrest⟩ := bind_eq_ok h
    obtain ⟨hparams, hresult⟩ := bind_eq_ok hrest
    refine ((Template.buildOption_sound receiver hreceiver hcover).mono ?_ ?_).bind fun _ _ => ?_
    · simp +contextual [Template.reenters]
    · grind [Template.parts]
    refine ((Template.build_sound params hparams hcover).mono ?_ ?_).bind fun _ _ => ?_
    · simp +contextual [Template.reenters]
    · grind [Template.parts]
    refine (Plan.Sound.need Term.needSeq_eq_error).bind fun _ _ => ?_
    refine ((Template.build_sound result hresult hcover).mono ?_ ?_).bind fun _ _ => .pure _
    · simp +contextual [Template.reenters]
    · grind [Template.parts]
  | .mapFields source key filter value readonly optional =>
    obtain ⟨hsource, hrest⟩ := bind_eq_ok h
    obtain ⟨hkey, hrest⟩ := bind_eq_ok hrest
    obtain ⟨hfilter, hvalue⟩ := bind_eq_ok hrest
    refine ((Template.build_sound source hsource hcover).mono ?_ ?_).bind fun _ _ => ?_
    · simp +contextual [Template.reenters]
    · grind [Template.parts]
    refine (Plan.Sound.need Term.needComposite_eq_error).bind fun fields _ => ?_
    refine Plan.Abides.bind (.foldlM (fun mapped field => ?_) fields []) fun _ _ => .pure _
    have hinner := hcover.forField field.key field.value
    refine mapField_abides (fun _ _ => rfl) ?_ ?_ ?_ mapped
    · refine (Guard.holdsIfAny_sound filter hfilter hinner).mono ?_ ?_
      · simp +contextual [Template.reenters]
      · grind [Template.parts]
    · refine (Template.buildOption_sound key hkey hinner).mono ?_ ?_
      · simp +contextual [Template.reenters]
      · grind [Template.parts]
    · refine (Template.build_sound value hvalue hinner).mono ?_ ?_
      · simp +contextual [Template.reenters]
      · grind [Template.parts]
  | .reduce inner =>
    refine ((Template.build_sound inner h hcover).mono ?_ ?_).bind fun _ _ => ?_
    · simp [Template.reenters]
    · simp [Template.parts]
    exact .ask rfl fun _ => .done trivial
  | .call rule inner =>
    obtain ⟨hinner, hrule⟩ := bind_eq_ok h
    refine ((Template.build_sound inner hinner hcover).mono id ?_).bind fun _ _ => ?_
    · simp [Template.parts]
    exact .ask ⟨hrule, inner, by simp [Template.parts]⟩ fun _ => .done trivial
  | .undefined reason => exact .fail rfl
termination_by structural template

theorem Template.buildItems_sound (items : List (SeqItem Template)) {bound : List String}
    {captures : Captures} (h : Template.validateItems bound items = .ok ())
    (hcover : captures.Cover bound) :
    (Template.buildItems decls items captures).Sound (Template.reentersItems items)
      (Template.partsItems items) := by
  match items with
  | [] => exact .pure _
  | .element template :: rest =>
    obtain ⟨hfirst, hrest⟩ := bind_eq_ok h
    refine ((Template.build_sound template hfirst hcover).mono ?_ ?_).bind fun _ _ => ?_
    · simp +contextual [Template.reentersItems]
    · simp [Template.partsItems]
    refine ((Template.buildItems_sound rest hrest hcover).mono ?_ ?_).bind fun _ _ => .pure _
    · simp +contextual [Template.reentersItems]
    · simp [Template.partsItems]
  | .splice template :: rest =>
    obtain ⟨hfirst, hrest⟩ := bind_eq_ok h
    refine ((Template.build_sound template hfirst hcover).mono ?_ ?_).bind fun _ _ => ?_
    · simp +contextual [Template.reentersItems]
    · simp [Template.partsItems]
    refine (Plan.Sound.need Term.needSeq_eq_error).bind fun _ _ => ?_
    refine ((Template.buildItems_sound rest hrest hcover).mono ?_ ?_).bind fun _ _ => .pure _
    · simp +contextual [Template.reentersItems]
    · simp [Template.partsItems]
termination_by structural items

theorem Template.buildPieces_sound (pieces : List (TextPiece Template)) {bound : List String}
    {captures : Captures} (h : Template.validatePieces bound pieces = .ok ())
    (hcover : captures.Cover bound) :
    (Template.buildPieces decls pieces captures).Sound (Template.reentersPieces pieces)
      (Template.partsPieces pieces) := by
  match pieces with
  | [] => exact .pure _
  | .literal s :: rest =>
    exact (Template.buildPieces_sound rest h hcover).bind fun _ _ => .pure _
  | .insert template :: rest =>
    obtain ⟨hfirst, hrest⟩ := bind_eq_ok h
    refine ((Template.build_sound template hfirst hcover).mono ?_ ?_).bind fun _ _ => ?_
    · simp +contextual [Template.reentersPieces]
    · simp [Template.partsPieces]
    refine (Plan.Sound.need Term.needFragment_eq_error).bind fun _ _ => ?_
    refine ((Template.buildPieces_sound rest hrest hcover).mono ?_ ?_).bind fun _ _ => .pure _
    · simp +contextual [Template.reentersPieces]
    · simp [Template.partsPieces]
termination_by structural pieces

theorem Template.buildAll_sound (templates : List Template) {bound : List String}
    {captures : Captures} (h : Template.validateAll bound templates = .ok ())
    (hcover : captures.Cover bound) :
    (Template.buildAll decls templates captures).Sound (Template.reentersAny templates)
      (Template.partsAll templates) := by
  match templates with
  | [] => exact .pure _
  | template :: rest =>
    obtain ⟨hfirst, hrest⟩ := bind_eq_ok h
    refine ((Template.build_sound template hfirst hcover).mono ?_ ?_).bind fun _ _ => ?_
    · simp +contextual [Template.reentersAny]
    · simp [Template.partsAll]
    refine ((Template.buildAll_sound rest hrest hcover).mono ?_ ?_).bind fun _ _ => .pure _
    · simp +contextual [Template.reentersAny]
    · simp [Template.partsAll]
termination_by structural templates

theorem Template.buildOption_sound (template : Option Template) {bound : List String}
    {captures : Captures} (h : Template.validateOption bound template = .ok ())
    (hcover : captures.Cover bound) :
    (Template.buildOption decls template captures).Sound (Template.reentersOption template)
      (Template.partsOption template) := by
  match template with
  | none => exact .pure _
  | some template => exact (Template.build_sound template h hcover).bind fun _ _ => .pure _
termination_by structural template

theorem Guard.holds_sound (guard : Guard) {bound : List String} {captures : Captures}
    (h : guard.validate bound = .ok ()) (hcover : captures.Cover bound) :
    (guard.holds decls captures).Sound guard.reenters guard.parts := by
  match guard with
  | .equal left right | .fits left right =>
    obtain ⟨hleft, hright⟩ := bind_eq_ok h
    refine ((Template.build_sound left hleft hcover).mono ?_ ?_).bind fun _ _ => ?_
    · simp +contextual [Guard.reenters]
    · simp [Guard.parts]
    refine ((Template.build_sound right hright hcover).mono ?_ ?_).bind fun _ _ => .pure _
    · simp +contextual [Guard.reenters]
    · simp [Guard.parts]
  | .negation inner => exact (Guard.holds_sound inner h hcover).bind fun _ _ => .pure _
  | .all guards => exact Guard.allHold_sound guards h hcover
termination_by structural guard

theorem Guard.allHold_sound (guards : List Guard) {bound : List String} {captures : Captures}
    (h : Guard.validateAll bound guards = .ok ()) (hcover : captures.Cover bound) :
    (Guard.allHold decls guards captures).Sound (Guard.reentersAny guards) (Guard.partsAll guards) := by
  match guards with
  | [] => exact .pure _
  | guard :: rest =>
    obtain ⟨hfirst, hrest⟩ := bind_eq_ok h
    refine ((Guard.holds_sound guard hfirst hcover).mono ?_ ?_).bind fun holds _ => ?_
    · simp +contextual [Guard.reentersAny]
    · simp [Guard.partsAll]
    cases holds with
    | false => exact .pure _
    | true =>
      refine (Guard.allHold_sound rest hrest hcover).mono ?_ ?_
      · simp +contextual [Guard.reentersAny]
      · simp [Guard.partsAll]
termination_by structural guards

theorem Guard.holdsIfAny_sound (guard : Option Guard) {bound : List String} {captures : Captures}
    (h : Guard.validateOption bound guard = .ok ()) (hcover : captures.Cover bound) :
    (Guard.holdsIfAny decls guard captures).Sound (Guard.reentersOption guard)
      (Guard.partsOption guard) := by
  match guard with
  | none => exact .pure _
  | some guard => exact Guard.holds_sound guard h hcover
termination_by structural guard

end

end

/-! ## Valid rules -/

variable {decls : Declarations} {arm : Arm} {arms : List Arm} {rule called : Rule} {input : Term}
  {captures : Captures}

/-- A step that goes on is taken only by a rule that re-enters itself. -/
def Step.Within (reenters : Bool) : Step → Prop
  | .done _ => True
  | .again _ => reenters = true

theorem Step.Within.mono {reenters reenters' : Bool} {step : Step} (h : step.Within reenters)
    (hreenters : reenters = true → reenters' = true) : step.Within reenters' := by
  cases step with
  | done result => trivial
  | again next => exact hreenters h

/-- A plan for a step of a rule with these parts that validation has accepted. -/
abbrev Plan.SoundStep (reenters : Bool) (parts : List Template) (plan : Plan Step) : Prop :=
  plan.Abides (·.cause.blamesTerm = true) (fun _ => True) (·.Within reenters parts) (·.Within reenters)

theorem Plan.SoundStep.mono {reenters reenters' : Bool} {parts more : List Template}
    {plan : Plan Step} (h : plan.SoundStep reenters parts)
    (hreenters : reenters = true → reenters' = true) (hmore : parts.Sublist more) :
    plan.SoundStep reenters' more :=
  Abides.mono h (fun _ => id) (fun _ hrequest => hrequest.mono hreenters hmore)
    fun _ hstep => hstep.mono hreenters

theorem Arm.take_sound (h : arm.body.validate arm.pattern.binders = .ok ())
    (hcover : captures.Cover arm.pattern.binders) :
    (arm.take decls captures).SoundStep arm.body.reenters arm.body.parts := by
  have hbuild : (arm.body.build decls captures).Sound arm.body.reenters arm.body.parts :=
    arm.body.build_sound h hcover
  unfold Arm.take
  split
  · rename_i inner hbody
    rw [hbody] at h ⊢
    have hinner : (inner.build decls captures).Sound true (Template.reduce inner).parts := by
      refine (inner.build_sound h hcover).mono (fun _ => rfl) ?_
      simp [Template.parts]
    exact Plan.Abides.bind hinner fun _ _ => .done rfl
  · exact Plan.Abides.bind hbuild fun _ _ => .done trivial

theorem Arm.tryEach_sound (terminal : Terminal) (h : Arm.validateAll arms = .ok ()) :
    (Arm.tryEach decls terminal input arms).SoundStep (arms.any Arm.reenters) (Arm.partsAll arms) := by
  induction arms with
  | nil =>
    refine Plan.Abides.bind (.lift fun failure h => ?_) fun result _ => .done trivial
    obtain ⟨reason, -, rfl⟩ := Terminal.result_eq_error h
    rfl
  | cons arm rest ih =>
    obtain ⟨pattern, guard, body⟩ := arm
    obtain ⟨harm, hrest⟩ := bind_eq_ok h
    obtain ⟨hguard, hbody⟩ := bind_eq_ok harm
    have hlater : (Arm.tryEach decls terminal input rest).SoundStep
        ((⟨pattern, guard, body⟩ :: rest : List Arm).any Arm.reenters)
        (Arm.partsAll (⟨pattern, guard, body⟩ :: rest)) := by
      refine (ih hrest).mono ?_ ?_
      · simp +contextual
      · simp [Arm.partsAll]
    rw [Arm.tryEach]
    refine .note trivial ?_
    cases hmatch : pattern.captures? decls input with
    | none => exact hlater
    | some captures =>
      have hcover : captures.Cover pattern.binders := Pattern.contains_of_captures? hmatch
      have hholds : (Guard.holdsIfAny decls guard captures).Sound
          ((⟨pattern, guard, body⟩ :: rest : List Arm).any Arm.reenters)
          (Arm.partsAll (⟨pattern, guard, body⟩ :: rest)) := by
        refine (Guard.holdsIfAny_sound guard hguard hcover).mono ?_ ?_
        · simp +contextual [Arm.reenters]
        · simp [Arm.partsAll, Arm.parts]
      refine Plan.Abides.bind hholds fun holds _ => ?_
      split
      · refine .note trivial ((Arm.take_sound hbody hcover).mono ?_ ?_)
        · simp +contextual [Arm.reenters]
        · simp [Arm.partsAll, Arm.parts]
      · exact hlater

/-- A rule that is valid has valid arms, and re-enters itself only if it says so. -/
theorem Rule.validate_eq_ok (h : rule.validate = .ok ()) :
    Arm.validateAll rule.arms = .ok () ∧
      (rule.isRecursive = true → rule.recursion ≠ .forbidden) := by
  obtain ⟨name, arms, terminal, recursion⟩ := rule
  rw [Rule.validate] at h
  split at h
  · cases h
  · rename_i hdeclared
    refine ⟨?_, fun hrecursive hforbidden => ?_⟩
    · cases hall : Arm.validateAll arms with
      | ok _ => rfl
      | error failure =>
        rw [hall] at h
        cases h
    · have harms : arms.any Arm.reenters = true := hrecursive
      have hnone : recursion = .forbidden := hforbidden
      simp [hnone, harms] at hdeclared

/-- A step of a valid rule fails only because of a term, asks only for what the rule is
made of, and goes on only if the rule is recursive. -/
theorem Rule.step_sound (h : rule.validate = .ok ()) :
    (rule.step decls input).SoundStep rule.isRecursive rule.parts := by
  obtain ⟨name, arms, terminal, recursion⟩ := rule
  exact Arm.tryEach_sound terminal (Rule.validate_eq_ok h).1

end Reshape
