import Reshape.Proofs.Rule.Contracts
import Reshape.Reduction.Step

/-!
# Steps of rules that honour their contracts

A rule that honours its contracts, on a term that one of them takes, makes a step without failure, as
long as its requests are answered as the contracts of the rules that it asks say; and the step gives
what the contract says, or a term to go on with under a contract that gives as much
(`Rule.step_delivers`).
-/

namespace Reshape

/-- The request is for a rule that honours its contracts, on a term that the contract takes; the
contracts of the rule around it are given. -/
def Request.Under (contracts : Contracts) (own : List Contract) (contract : Contract) : Request → Prop
  | .self next => contract ∈ own ∧ contract.takes.admits next = true
  | .call rule input =>
    rule.honours contracts = true ∧ contract ∈ contracts rule.name ∧
      contract.takes.admits input = true

/-- As long as each request is answered as some contract says, the plan does not fail, and gives as
the condition says. -/
inductive Plan.Delivers (contracts : Contracts) (own : List Contract) {α : Type} (gives : α → Prop) :
    Plan α → Prop where
  | done {value : α} : gives value → Plan.Delivers contracts own gives (.done value)
  | note {n : Note} {rest : Plan α} :
      Plan.Delivers contracts own gives rest → Plan.Delivers contracts own gives (.note n rest)
  | ask {request : Request} {next : Term → Plan α} {contract : Contract} :
      request.Under contracts own contract →
      (∀ answer, contract.gives.admits answer = true →
        Plan.Delivers contracts own gives (next answer)) →
      Plan.Delivers contracts own gives (.ask request next)

namespace Plan.Delivers

variable {α β : Type} {contracts : Contracts} {own : List Contract} {gives : α → Prop}
  {final : β → Prop} {plan : Plan α}

theorem pure {value : α} (h : gives value) : (Pure.pure value : Plan α).Delivers contracts own gives :=
  .done h

theorem bind {f : α → Plan β} (h : plan.Delivers contracts own gives)
    (hf : ∀ value, gives value → (f value).Delivers contracts own final) :
    (plan >>= f).Delivers contracts own final := by
  induction h with
  | done hvalue => exact hf _ hvalue
  | note _ ih => exact .note ih
  | ask hrequest _ ih => exact .ask hrequest ih

theorem mono {gives' : α → Prop} (h : plan.Delivers contracts own gives)
    (hgives : ∀ value, gives value → gives' value) : plan.Delivers contracts own gives' := by
  induction h with
  | done hvalue => exact .done (hgives _ hvalue)
  | note _ ih => exact .note ih
  | ask hrequest _ ih => exact .ask hrequest ih

theorem lift {o : Except Failure α} (h : ∃ value, o = .ok value ∧ gives value) :
    (Plan.lift o).Delivers contracts own gives := by
  obtain ⟨value, rfl, hvalue⟩ := h
  exact .done hvalue

theorem foldlM {f : β → α → Plan β} (h : ∀ acc x, (f acc x).Delivers contracts own fun _ => True)
    (xs : List α) (acc : β) : (xs.foldlM f acc).Delivers contracts own fun _ => True := by
  induction xs generalizing acc with
  | nil => exact .done trivial
  | cons x xs ih => exact (h acc x).bind fun acc _ => ih acc

end Plan.Delivers

/-! ## Terms of the kinds that are needed -/

section

variable {decls : Declarations} {contracts : Contracts} {own : List Contract} {scope : Scope}
  {captures : Captures} {needed : Aspect} {term : Term} {kind : Term.Kind}

/-- The kind of a term is enough for what is needed. -/
theorem Aspect.holds_of_kind (h : (Aspect.own (.kind kind)).implies needed = true)
    (hterm : term.kind = kind) : needed.Holds decls term :=
  holds_of_implies h (beq_iff_eq.2 hterm)

theorem needSeq_delivers (h : term.kind = .seq) :
    (Plan.lift term.needSeq).Delivers contracts own fun _ => True := by
  cases term <;> cases h
  exact .done trivial

theorem needText_delivers (h : term.kind = .text) :
    (Plan.lift term.needText).Delivers contracts own fun _ => True := by
  cases term <;> cases h
  exact .done trivial

theorem needComposite_delivers (h : term.kind = .composite) :
    (Plan.lift term.needComposite).Delivers contracts own fun _ => True := by
  cases term <;> cases h
  exact .done trivial

theorem needLength_delivers (h : term.kind = .seq ∨ term.kind = .text) :
    (Plan.lift term.needLength).Delivers contracts own fun length => length.kind = .atom := by
  cases term <;> rcases h with h | h <;> cases h <;> exact .done rfl

theorem needFragment_delivers (h : term.kind = .text) :
    (Plan.lift term.needFragment).Delivers contracts own fun _ => True := by
  cases term <;> cases h
  exact .done trivial

theorem needKey_delivers {old : String} {key : Option Term} (h : ∀ term ∈ key, term.kind = .text) :
    (Plan.lift (Term.needKey old key)).Delivers contracts own fun _ => True := by
  cases key with
  | none => exact .done trivial
  | some term =>
    have hterm := h term rfl
    cases term <;> cases hterm
    exact .done trivial

theorem lookup_delivers {name : String} (hfit : captures.Fit decls scope)
    (h : (scope.any fun fact => fact.1 == name && fact.2.implies needed) = true) :
    (Plan.lift (captures.lookup name)).Delivers contracts own (needed.Holds decls) := by
  obtain ⟨fact, hfact, hmatch⟩ := List.any_eq_true.1 h
  rw [Bool.and_eq_true, beq_iff_eq] at hmatch
  obtain ⟨term, hget, hholds⟩ := hfit fact hfact
  rw [hmatch.1] at hget
  refine .lift ⟨term, ?_, Aspect.holds_of_implies hmatch.2 hholds⟩
  rw [Captures.lookup, hget]

/-- Inside a mapped field the key is a text, and what is known of other captures stays true. -/
theorem Captures.Fit.forField (h : captures.Fit decls scope) (key : String) (value : Term) :
    (captures.forField key value).Fit decls scope.forField := by
  intro fact hfact
  rw [Captures.get?_forField]
  rcases List.mem_cons.1 hfact with rfl | hfact
  · exact ⟨value, rfl, rfl⟩
  rcases List.mem_cons.1 hfact with rfl | hfact
  · exact ⟨.text key, rfl, rfl⟩
  · obtain ⟨hmem, hother⟩ := List.mem_filter.1 hfact
    rw [Bool.and_eq_true, bne_iff_ne, bne_iff_ne] at hother
    rw [if_neg hother.2.symm, if_neg hother.1.symm]
    exact h fact hmem

/-! ## Templates -/

theorem mapField_delivers {filter : Captures → Plan Bool} {key : Captures → Plan (Option Term)}
    {value : Captures → Plan Term} {readonly optional : FlagEdit} (hfit : captures.Fit decls scope)
    (hfilter : ∀ {inner : Captures}, inner.Fit decls scope.forField →
      (filter inner).Delivers contracts own fun _ => True)
    (hkey : ∀ {inner : Captures}, inner.Fit decls scope.forField →
      (key inner).Delivers contracts own fun built => ∀ term ∈ built, (decls.resolve term).kind = .text)
    (hvalue : ∀ {inner : Captures}, inner.Fit decls scope.forField →
      (value inner).Delivers contracts own fun _ => True)
    (mapped : Composite) (field : Entry Term) :
    (mapField decls filter key value readonly optional captures mapped field).Delivers contracts own
      fun _ => True := by
  have hinner := hfit.forField field.key field.value
  refine (hfilter hinner).bind fun holds _ => ?_
  split
  · refine (hkey hinner).bind fun built hbuilt => ?_
    have htext : ∀ term ∈ built.map decls.resolve, term.kind = .text := by
      intro term hterm
      obtain ⟨written, hwritten, rfl⟩ := Option.map_eq_some_iff.1 hterm
      exact hbuilt written hwritten
    refine (needKey_delivers htext).bind fun newKey _ => ?_
    cases newKey with
    | none => exact .pure trivial
    | some newKey => exact (hvalue hinner).bind fun _ _ => .pure trivial
  · exact .pure trivial

mutual

/-- A template that builds terms as they are needed does so without failure. -/
theorem Template.build_delivers (template : Template) {scope : Scope} {captures : Captures}
    {needed : Aspect} (h : template.builds contracts own scope needed = true)
    (hfit : captures.Fit decls scope) :
    (template.build decls captures).Delivers contracts own (needed.Holds decls) := by
  match template with
  | .capture name => exact lookup_delivers hfit h
  | .literal term => exact .pure (Aspect.holds_of_admits h)
  | .seq items =>
    match needed with
    | .own (.tuple outlines) => exact (Template.buildItems_delivers items h hfit).bind fun _ h => .pure h
    | .own .any | .own (.kind _) | .behind _ =>
      rw [Template.builds, Bool.and_eq_true] at h
      · refine (Template.buildItems_delivers items h.2 hfit).bind fun _ _ => .pure ?_
        exact Aspect.holds_of_kind h.1 rfl
      · nofun
  | .text pieces =>
    rw [Template.builds, Bool.and_eq_true] at h
    refine (Template.buildPieces_delivers pieces h.2 hfit).bind fun _ _ => .pure ?_
    exact Aspect.holds_of_kind h.1 rfl
  | .recase op inner =>
    rw [Template.builds, Bool.and_eq_true] at h
    refine (Template.build_delivers inner h.2 hfit).bind fun term hterm => ?_
    exact (needText_delivers hterm).bind fun _ _ => .pure (Aspect.holds_of_kind h.1 rfl)
  | .length inner =>
    rw [Template.builds, Bool.and_eq_true, Bool.or_eq_true] at h
    have hlength : ∀ term, (decls.resolve term).kind = .seq ∨ (decls.resolve term).kind = .text →
        (Plan.lift (decls.resolve term).needLength).Delivers contracts own (needed.Holds decls) :=
      fun term hterm => (needLength_delivers hterm).mono fun _ hatom => Aspect.holds_of_kind h.1 hatom
    rcases h.2 with hinner | hinner
    · exact (Template.build_delivers inner hinner hfit).bind fun term hterm => hlength term (.inl hterm)
    · exact (Template.build_delivers inner hinner hfit).bind fun term hterm => hlength term (.inr hterm)
  | .apply head args =>
    rw [Template.builds, Bool.and_eq_true] at h
    refine (Template.buildAll_delivers args h.2 hfit).bind fun _ _ => .pure ?_
    exact Aspect.holds_of_kind h.1 rfl
  | .function kind receiver params result =>
    simp only [Template.builds, Bool.and_eq_true] at h
    obtain ⟨⟨⟨hneeded, hreceiver⟩, hparams⟩, hresult⟩ := h
    refine (Template.buildOption_delivers receiver hreceiver hfit).bind fun _ _ => ?_
    refine (Template.build_delivers params hparams hfit).bind fun term hterm => ?_
    refine (needSeq_delivers hterm).bind fun _ _ => ?_
    refine (Template.build_delivers result hresult hfit).bind fun _ _ => .pure ?_
    exact Aspect.holds_of_kind hneeded rfl
  | .mapFields source key filter value readonly optional =>
    simp only [Template.builds, Bool.and_eq_true] at h
    obtain ⟨⟨⟨⟨hneeded, hsource⟩, hkey⟩, hfilter⟩, hvalue⟩ := h
    refine (Template.build_delivers source hsource hfit).bind fun term hterm => ?_
    refine (needComposite_delivers hterm).bind fun fields _ => ?_
    refine (Plan.Delivers.foldlM ?_ fields []).bind fun _ _ => .pure (Aspect.holds_of_kind hneeded rfl)
    refine mapField_delivers hfit (Guard.holdsIfAny_delivers filter hfilter) ?_ fun hinner => ?_
    · exact Template.buildOption_delivers key hkey
    · exact (Template.build_delivers value hvalue hinner).mono fun _ _ => trivial
  | .reduce inner =>
    obtain ⟨contract, hcontract, hbuilds⟩ := List.any_eq_true.1 h
    rw [Bool.and_eq_true] at hbuilds
    refine (Template.build_delivers inner hbuilds.2 hfit).bind fun term hterm => ?_
    have hrequest : (Request.self term).Under contracts own contract := ⟨hcontract, hterm⟩
    refine .ask hrequest fun answer hanswer => .pure ?_
    exact Aspect.holds_of_implies hbuilds.1 hanswer
  | .call rule inner =>
    rw [Template.builds, Bool.and_eq_true] at h
    obtain ⟨contract, hcontract, hbuilds⟩ := List.any_eq_true.1 h.2
    rw [Bool.and_eq_true] at hbuilds
    refine (Template.build_delivers inner hbuilds.2 hfit).bind fun term hterm => ?_
    have hrequest : (Request.call rule term).Under contracts own contract := ⟨h.1, hcontract, hterm⟩
    refine .ask hrequest fun answer hanswer => .pure ?_
    exact Aspect.holds_of_implies hbuilds.1 hanswer
  | .undefined reason => cases h
termination_by structural template

theorem Template.buildItems_delivers (items : List (SeqItem Template)) {scope : Scope}
    {captures : Captures} {outlines : List Outline}
    (h : Template.buildsItems contracts own scope items outlines = true)
    (hfit : captures.Fit decls scope) :
    (Template.buildItems decls items captures).Delivers contracts own
      fun terms => Outline.admitsEach outlines terms = true := by
  match items with
  | [] => exact .pure (by cases outlines <;> rfl)
  | .element template :: rest =>
    rw [Template.buildsItems, Bool.and_eq_true] at h
    refine (Template.build_delivers template h.1 hfit).bind fun term hterm => ?_
    refine (Template.buildItems_delivers rest h.2 hfit).bind fun terms hterms => .pure ?_
    cases outlines with
    | nil => rfl
    | cons outline outlines => exact Bool.and_eq_true _ _ ▸ ⟨hterm, hterms⟩
  | .splice template :: rest =>
    rw [Template.buildsItems, Bool.and_eq_true, Bool.and_eq_true, List.isEmpty_iff] at h
    obtain ⟨⟨rfl, htemplate⟩, hrest⟩ := h
    refine (Template.build_delivers template htemplate hfit).bind fun term hterm => ?_
    refine (needSeq_delivers hterm).bind fun _ _ => ?_
    exact (Template.buildItems_delivers rest hrest hfit).bind fun _ _ => .pure (Outline.admitsEach_nil _)
termination_by structural items

theorem Template.buildPieces_delivers (pieces : List (TextPiece Template)) {scope : Scope}
    {captures : Captures} (h : Template.buildsPieces contracts own scope pieces = true)
    (hfit : captures.Fit decls scope) :
    (Template.buildPieces decls pieces captures).Delivers contracts own fun _ => True := by
  match pieces with
  | [] => exact .pure trivial
  | .literal s :: rest =>
    exact (Template.buildPieces_delivers rest h hfit).bind fun _ _ => .pure trivial
  | .insert template :: rest =>
    rw [Template.buildsPieces, Bool.and_eq_true] at h
    refine (Template.build_delivers template h.1 hfit).bind fun term hterm => ?_
    refine (needFragment_delivers hterm).bind fun _ _ => ?_
    exact (Template.buildPieces_delivers rest h.2 hfit).bind fun _ _ => .pure trivial
termination_by structural pieces

theorem Template.buildAll_delivers (templates : List Template) {scope : Scope} {captures : Captures}
    (h : Template.buildsAll contracts own scope templates = true) (hfit : captures.Fit decls scope) :
    (Template.buildAll decls templates captures).Delivers contracts own fun _ => True := by
  match templates with
  | [] => exact .pure trivial
  | template :: rest =>
    rw [Template.buildsAll, Bool.and_eq_true] at h
    refine (Template.build_delivers template h.1 hfit).bind fun _ _ => ?_
    exact (Template.buildAll_delivers rest h.2 hfit).bind fun _ _ => .pure trivial
termination_by structural templates

theorem Template.buildOption_delivers (template : Option Template) {scope : Scope}
    {captures : Captures} {needed : Aspect}
    (h : Template.buildsOption contracts own scope template needed = true)
    (hfit : captures.Fit decls scope) :
    (Template.buildOption decls template captures).Delivers contracts own
      fun built => ∀ term ∈ built, needed.Holds decls term := by
  match template with
  | none => exact .pure nofun
  | some template =>
    refine (Template.build_delivers template h hfit).bind fun term hterm => .pure ?_
    rintro _ ⟨⟩
    exact hterm
termination_by structural template

theorem Guard.holds_delivers (guard : Guard) {scope : Scope} {captures : Captures}
    (h : guard.builds contracts own scope = true) (hfit : captures.Fit decls scope) :
    (guard.holds decls captures).Delivers contracts own fun _ => True := by
  match guard with
  | .equal left right | .fits left right =>
    rw [Guard.builds, Bool.and_eq_true] at h
    refine (Template.build_delivers left h.1 hfit).bind fun _ _ => ?_
    exact (Template.build_delivers right h.2 hfit).bind fun _ _ => .pure trivial
  | .negation inner => exact (Guard.holds_delivers inner h hfit).bind fun _ _ => .pure trivial
  | .all guards => exact Guard.allHold_delivers guards h hfit
termination_by structural guard

theorem Guard.allHold_delivers (guards : List Guard) {scope : Scope} {captures : Captures}
    (h : Guard.buildsAll contracts own scope guards = true) (hfit : captures.Fit decls scope) :
    (Guard.allHold decls guards captures).Delivers contracts own fun _ => True := by
  match guards with
  | [] => exact .pure trivial
  | guard :: rest =>
    rw [Guard.buildsAll, Bool.and_eq_true] at h
    refine (Guard.holds_delivers guard h.1 hfit).bind fun holds _ => ?_
    split
    · exact Guard.allHold_delivers rest h.2 hfit
    · exact .pure trivial
termination_by structural guards

theorem Guard.holdsIfAny_delivers (guard : Option Guard) {scope : Scope}
    (h : Guard.buildsOption contracts own scope guard = true) {captures : Captures}
    (hfit : captures.Fit decls scope) :
    (Guard.holdsIfAny decls guard captures).Delivers contracts own fun _ => True := by
  match guard with
  | none => exact .pure trivial
  | some guard => exact Guard.holds_delivers guard h hfit
termination_by structural guard

end

/-! ## Steps -/

/-- The step gives what the contract says, or a term to go on with under a contract that gives as
much. -/
def Step.Under (own : List Contract) (contract : Contract) : Step → Prop
  | .done result => contract.gives.admits result = true
  | .again next => ∃ other ∈ own, other.takes.admits next = true ∧
      other.gives.implies contract.gives = true

theorem Arm.take_delivers {arm : Arm} {contract : Contract}
    (h : arm.body.builds contracts own scope (.own contract.gives) = true)
    (hfit : captures.Fit decls scope) :
    (arm.take decls captures).Delivers contracts own (Step.Under own contract) := by
  obtain ⟨pattern, guard, body⟩ := arm
  have hbuild := Template.build_delivers body h hfit
  cases body with
  | reduce inner =>
    obtain ⟨other, hother, hbuilds⟩ := List.any_eq_true.1 h
    rw [Bool.and_eq_true] at hbuilds
    refine (Template.build_delivers inner hbuilds.2 hfit).bind fun next hnext => .pure ?_
    exact ⟨other, hother, hnext, hbuilds.1⟩
  | _ => exact hbuild.bind fun _ hresult => .pure hresult

theorem Terminal.result_delivers {terminal : Terminal} {contract : Contract} {input : Term}
    (h : terminal.honours contract = true) (hinput : contract.takes.admits input = true) :
    ∃ result, terminal.result input = .ok result ∧ contract.gives.admits result = true := by
  cases terminal with
  | input => exact ⟨input, rfl, Outline.admits_of_implies h hinput⟩
  | term result => exact ⟨result, rfl, h⟩
  | unmatched => exact ⟨.never, rfl, h⟩
  | undefined reason => cases h

theorem Arm.tryEach_delivers {terminal : Terminal} {contract : Contract} {input : Term}
    (hterminal : terminal.honours contract = true) (hinput : contract.takes.admits input = true)
    (arms : List Arm) (h : Arm.allHonour contracts own contract arms = true) :
    (Arm.tryEach decls terminal input arms).Delivers contracts own (Step.Under own contract) := by
  induction arms with
  | nil => exact (Plan.Delivers.lift (terminal.result_delivers hterminal hinput)).bind fun _ h => .pure h
  | cons arm rest ih =>
    rw [Arm.allHonour, Bool.and_eq_true] at h
    have hrest := ih h.2
    obtain ⟨harm, -⟩ := h
    obtain ⟨pattern, guard, body⟩ := arm
    rw [Arm.honours, Bool.and_eq_true] at harm
    rw [Arm.tryEach]
    refine .note ?_
    split
    · exact hrest
    · rename_i captures hmatch
      have hfit := Pattern.fit_of_captures? hinput hmatch
      refine (Guard.holdsIfAny_delivers guard harm.1 hfit).bind fun holds _ => ?_
      split
      · exact .note (Arm.take_delivers harm.2 hfit)
      · exact hrest

/-- A step of a rule that honours its contracts, on a term that one of them takes. -/
theorem Rule.step_delivers (decls : Declarations) {rule : Rule} {contract : Contract} {input : Term}
    (hrule : rule.honours contracts = true) (hcontract : contract ∈ contracts rule.name)
    (hinput : contract.takes.admits input = true) :
    (rule.step decls input).Delivers contracts (contracts rule.name)
      (Step.Under (contracts rule.name) contract) := by
  obtain ⟨name, arms, terminal, recursion⟩ := rule
  have hhonours := List.all_eq_true.1 hrule contract hcontract
  rw [Bool.and_eq_true] at hhonours
  exact Arm.tryEach_delivers hhonours.1 hinput arms hhonours.2

end

end Reshape
