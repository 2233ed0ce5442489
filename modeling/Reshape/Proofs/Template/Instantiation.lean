import Reshape.Instantiation
import Reshape.Proofs.Declarations.Acyclic
import Reshape.Proofs.Reduction.Conclusion
import Reshape.Proofs.Reduction.Hereditary
import Reshape.Proofs.Reduction.Validated

/-!
# Building outside of a rule and inside

Outside of a rule, every call starts a reduction of its own, which looks at the called rule and at
the term before it runs. Inside of a rule, a call only enters a frame. The checks make no difference:
the rules that a valid rule calls are valid, and the terms that it hands over are acyclic if its
literals are. So a rule that consists of one pattern and one template comes to what the template
builds from the captures of the match (`Rule.ends_as_instantiated`).
-/

namespace Reshape

open Reduction

variable {decls : Declarations} {rule : Rule} {input term : Term} {pattern : Pattern}
  {body : Template} {captures : Captures}

/-- What a plan settles on is changed as its value is. -/
theorem Plan.Settles.map {α β : Type} {plan : Plan α} {memo memo' : Option Memo} {o : Outcome α}
    {cost : Cost} (f : α → β) (h : Plan.Settles decls rule input plan memo o memo' cost) :
    Plan.Settles decls rule input (plan >>= fun value => .done (f value)) memo (o.map f) memo' cost := by
  induction plan generalizing memo cost with
  | done value =>
    cases h
    exact .done (f value)
  | fail failure =>
    cases h
    exact .fail failure
  | note n rest ih =>
    cases h with
    | note hrest => exact .note (ih hrest)
  | ask request next ih =>
    cases h with
    | failed hanswer => exact .failed hanswer
    | answered hanswer hrest => exact .answered hanswer (ih _ hrest)

/-! ## Calls outside of a rule -/

/-- A call outside of a rule is answered as the reduction of its own ends. -/
theorem Request.answerOutside_call (decls : Declarations) (called : Rule) (term : Term) :
    ∃ o s', called.Ends decls term (.ofMode .host) o s' ∧
      (Request.call called term).answerOutside decls () = Eval.lift o () := by
  have hbudget : (Session.ofMode .host).meter.budget = some 1000000 := rfl
  obtain ⟨o, s', hreduce⟩ := called.exists_reduce_eq_lift decls term hbudget
  exact ⟨o, s', Rule.ends_of_reduce hreduce, answerOutside_of_reduce hreduce⟩

/-- A plan that calls valid rules on acyclic terms, and feeds nothing back, comes outside of a rule
to what it settles on inside, unless one of the reductions that it starts reaches a limit. -/
theorem Plan.settles_as_outside (rule : Rule) (input : Term) {α : Type} {plan : Plan α}
    {parts : List Template} {gives : α → Prop}
    (hsound : plan.Sound false parts) (hmeets : plan.Within decls.Accepts gives) :
    ∃ o : Outcome α, plan.exec (fun _ => pure ()) (Request.answerOutside decls) () = Eval.lift o () ∧
      (o.hitLimit = true ∨ ∃ cost, Plan.Settles decls rule input plan none o none cost) := by
  induction plan with
  | done value => exact ⟨.ok value, rfl, .inr ⟨0, .done value⟩⟩
  | fail failure => exact ⟨.error failure, rfl, .inr ⟨0, .fail failure⟩⟩
  | note n rest ih =>
    cases hsound with
    | note _ hsound =>
      cases hmeets with
      | note hmeets =>
        obtain ⟨o, hexec, hor⟩ := ih hsound hmeets
        refine ⟨o, hexec, hor.imp_right ?_⟩
        rintro ⟨cost, hsettles⟩
        exact ⟨cost, .note hsettles⟩
  | ask request next ih =>
    cases hsound with
    | ask hwithin hnext =>
      cases hmeets with
      | ask hall hrest =>
        cases request with
        | self fed => cases hwithin
        | call called term =>
          obtain ⟨o, s', hends, hanswer⟩ := Request.answerOutside_call decls called term
          rw [Plan.exec, Eval.bind_apply, hanswer]
          cases ho : o.hitLimit with
          | true =>
            cases o with
            | ok answer => cases ho
            | error failure => exact ⟨.error failure, rfl, .inl ho⟩
          | false =>
            have hidle : (Session.ofMode .host).Idle := rfl
            have hvet : called.vet decls term = .ok () := (Rule.vet_of_acyclic hall.2).trans hwithin.1
            rcases hends.settles hidle ho with ⟨failure, hrejected, -⟩ | ⟨-, cost, henters, -⟩
            · cases hvet.symm.trans hrejected
            · rw [henters.memo_eq_none rfl] at henters
              have hsettles : Request.Settles decls rule input (.call called term) none o none cost :=
                .call henters
              cases o with
              | error failure => exact ⟨.error failure, rfl, .inr ⟨cost, .failed hsettles⟩⟩
              | ok answer =>
                -- The answer is a literal, a part of the term or made of such, so it is acyclic too.
                have haccepts := (hends.all decls.hereditary_accepts hidle hall.1 (fun _ => hall.2)
                  (by rintro _ ⟨⟩)).1 answer rfl
                obtain ⟨o, hexec, hor⟩ := ih answer (hnext answer) (hrest answer haccepts)
                refine ⟨o, hexec, hor.imp_right ?_⟩
                rintro ⟨cost', hrest⟩
                exact ⟨cost + cost', .answered hsettles hrest⟩

/-! ## Rules of one pattern and one template -/

/-- The step of such a rule builds the template from the captures of the match. -/
theorem Rule.step_of_single (harms : rule.arms = [{ pattern, body }]) (hbody : body.reenters = false)
    (hmatch : pattern.captures? decls input = some captures) :
    rule.step decls input = .note .armTried (.note .armTaken
      (body.build decls captures >>= fun result => .done (.done result))) := by
  rw [Rule.step, harms, Arm.tryEach, hmatch]
  cases body <;> first | rfl | cases hbody

theorem Rule.enters_of_single {o : Outcome Term} {cost : Cost}
    (harms : rule.arms = [{ pattern, body }]) (hbody : body.reenters = false)
    (hmatch : pattern.captures? decls input = some captures)
    (h : Plan.Settles decls rule input (body.build decls captures) none o none cost) :
    ∃ cost', rule.Enters decls input none (o.mapError (·.leaving rule.name)) none cost' := by
  have hplan : Plan.Settles decls rule input (rule.step decls input) none (o.map Step.done) none cost := by
    rw [step_of_single harms hbody hmatch]
    exact .note (.note (h.map Step.done))
  cases o with
  | error failure => exact ⟨_, .failed rfl (.failed hplan)⟩
  | ok result => exact ⟨_, Yields.enters (.done hplan)⟩

/-- Building a template outside of a rule and reducing with a rule come to the same. Take a valid rule
of one pattern and one template, which does not re-enter the rule, and whose literals and those of the
rules that it calls are acyclic (the term that such a rule gives when no arm applies is one of them), and
an acyclic term that matches. What the template builds from the captures is the result of the reduction,
in any session without a memo between two reductions; and if building it fails, the reduction fails for
the same cause, with the rule at the end of the trail. Only if building it reaches a limit does this say
nothing of the reduction; otherwise the reduction comes to an end, so, or at a limit of its own. -/
theorem Rule.ends_as_instantiated (rule : Rule) (decls : Declarations) (term : Term) (s : Session)
    (pattern : Pattern) (body : Template) (captures : Captures) (hidle : s.Idle) (hmemo : s.memo = none)
    (hvalid : rule.validate = .ok ()) (harms : rule.arms = [{ pattern, body }])
    (hbody : body.reenters = false) (hliterals : Template.LiteralsAll decls.Accepts body.parts)
    (hterm : decls.Accepts term) (hmatch : pattern.captures? decls term = some captures) :
    ∃ o : Outcome Term, body.instantiate decls captures = o.mapError .failed ∧
      (o.hitLimit = true ∨ ∃ o' s', rule.Ends decls term s o' s' ∧
        (o'.hitLimit = true ∨ o' = o.mapError (·.leaving rule.name))) := by
  have hvalidBody : body.validate pattern.binders = .ok () := by
    obtain ⟨hvalidArms, -⟩ := Rule.validate_eq_ok hvalid
    rw [harms] at hvalidArms
    obtain ⟨hvalidArm, -⟩ := bind_eq_ok hvalidArms
    exact (bind_eq_ok hvalidArm).2
  have hsound : (body.build decls captures).Sound body.reenters body.parts :=
    body.build_sound hvalidBody (Pattern.contains_of_captures? hmatch)
  have hmeets := body.build_meets decls.hereditary_accepts hliterals
    (Pattern.all_of_captures? decls.hereditary_accepts hterm hmatch)
  rw [hbody] at hsound
  obtain ⟨o, hexec, hor⟩ := Plan.settles_as_outside rule term hsound hmeets
  refine ⟨o, Template.instantiate_of_exec hexec, hor.imp_right ?_⟩
  rintro ⟨cost, hsettles⟩
  have hvet : rule.vet decls term = .ok () := (vet_of_acyclic hterm).trans hvalid
  obtain ⟨cost', henters⟩ := enters_of_single harms hbody hmatch hsettles
  rw [← hmemo] at henters
  obtain ⟨o', s', hends⟩ := exists_ends_of_enters hidle hvet henters
  refine ⟨o', s', hends, ?_⟩
  rcases hends.meets hidle hvet henters with ⟨-, rfl⟩ | ⟨-, hlimit⟩
  · exact .inr rfl
  · exact .inl hlimit

/-- Puts a count beside what is inside of a wrapping. -/
def measuring : Rule where
  name := "measuring"
  arms := [{ pattern := .tuple [.bind "item"]
             body := .seq [.element (.capture "item"), .element (.call counting (.capture "item"))] }]

/-- Two characters are counted beside the text, and a boolean cannot be counted, inside of the rule and
outside. -/
theorem measuring_as_instantiated :
    let body : Template :=
      .seq [.element (.capture "item"), .element (.call counting (.capture "item"))]
    (body.instantiate ∅ (.ofList [("item", .text "ab")]) = .ok (.seq [.text "ab", .int 2]) ∧
      ∃ s', measuring.Ends ∅ (.seq [.text "ab"]) (.ofMode .testRun)
        (.ok (.seq [.text "ab", .int 2])) s') ∧
    body.instantiate ∅ (.ofList [("item", .bool true)]) =
        .error (.failed ⟨.wrongKind "sequence or text" .atom, ["count", "counting"]⟩) ∧
      ∃ s', measuring.Ends ∅ (.seq [.bool true]) (.ofMode .testRun)
        (.error ⟨.wrongKind "sequence or text" .atom, ["count", "counting", "measuring"]⟩) s' := by
  intro body
  have hnone : body.parts.flatMap Template.literals = [] := rfl
  have hliterals : Template.LiteralsAll (∅ : Declarations).Accepts body.parts := by
    intro part hpart literal hliteral
    have hmem := List.mem_flatMap.2 ⟨part, hpart, hliteral⟩
    rw [hnone] at hmem
    cases hmem
  have hagree (item : Term) (o : Outcome Term) (hitem : (∅ : Declarations).cycleIn? (.seq [item]) = none)
      (hbuilt : body.instantiate ∅ (.ofList [("item", item)]) = o.mapError .failed)
      (ho : o.hitLimit = false) :
      ∃ o' s', measuring.Ends ∅ (.seq [item]) (.ofMode .testRun) o' s' ∧
        (o'.hitLimit = true ∨ o' = o.mapError (·.leaving "measuring")) := by
    obtain ⟨o₁, hbuilt₁, hor⟩ := measuring.ends_as_instantiated ∅ (.seq [item]) (.ofMode .testRun)
      (.tuple [.bind "item"]) body (.ofList [("item", item)]) rfl rfl (by decide +kernel) rfl rfl
      hliterals (Declarations.needAcyclic_eq_ok_iff.2 hitem) rfl
    have hsame : o₁ = o := by
      rw [hbuilt] at hbuilt₁
      cases o <;> cases o₁ <;> cases hbuilt₁ <;> rfl
    rw [hsame, ho] at hor
    exact hor.resolve_left Bool.false_ne_true
  -- that no limit is reached is seen on a little fuel
  have htext : ∃ s₁, measuring.Ends ∅ (.seq [.text "ab"]) (.ofMode .testRun)
      (.ok (.seq [.text "ab", .int 2])) s₁ := ⟨_, 4, rfl⟩
  have hbool : ∃ s₁, measuring.Ends ∅ (.seq [.bool true]) (.ofMode .testRun)
      (.error ⟨.wrongKind "sequence or text" .atom, ["count", "counting", "measuring"]⟩) s₁ :=
    ⟨_, 4, rfl⟩
  refine ⟨⟨rfl, ?_⟩, rfl, ?_⟩
  · obtain ⟨o', s', hends, hlimit | rfl⟩ :=
      hagree (.text "ab") (.ok (.seq [.text "ab", .int 2])) (by decide +kernel) rfl rfl
    · obtain ⟨s₁, htext⟩ := htext
      obtain ⟨rfl, -⟩ := hends.unique htext
      cases hlimit
    · exact ⟨s', hends⟩
  · obtain ⟨o', s', hends, hlimit | rfl⟩ := hagree (.bool true)
      (.error ⟨.wrongKind "sequence or text" .atom, ["count", "counting"]⟩) (by decide +kernel) rfl rfl
    · obtain ⟨s₁, hbool⟩ := hbool
      obtain ⟨rfl, -⟩ := hends.unique hbool
      cases hlimit
    · exact ⟨s', hends⟩

end Reshape
