import Reshape.Proofs.Reduction.Limits
import Reshape.Proofs.Template.Requests

/-!
# Rules that only nest

A rule that calls no other rule, and feeds terms back only inside of what it builds, goes one
frame deeper each time. So the greatest depth ends its reductions, whatever it is fed back and
however many steps there may be (`Rule.exists_ends_of_nests`).
-/

namespace Reshape

/-- Each step of the rule comes to a result, and asks for nothing but the rule itself. -/
def Rule.Nests (decls : Declarations) (rule : Rule) : Prop :=
  ∀ input, (rule.step decls input).Abides (fun _ => True) (fun _ => True)
    (fun request => ∃ next, request = .self next) fun step => ∃ result, step = .done result

/-! ## Steps -/

namespace Plan.Abides

variable {α : Type} {fails fails' : Failure → Prop} {notes notes' : Note → Prop}
  {asks asks' : Request → Prop} {gives gives' : α → Prop} {plan : Plan α}

/-- Any plan abides by conditions that say nothing. -/
theorem any (plan : Plan α) :
    plan.Abides (fun _ => True) (fun _ => True) (fun _ => True) fun _ => True := by
  induction plan with
  | done value => exact .done trivial
  | fail failure => exact .fail trivial
  | note n rest ih => exact .note trivial ih
  | ask request next ih => exact .ask trivial ih

/-- A plan that abides by two conditions on what it asks for and gives abides by both. -/
theorem and (h : plan.Abides fails notes asks gives) (h' : plan.Abides fails' notes' asks' gives') :
    plan.Abides (fun _ => True) (fun _ => True) (fun request => asks request ∧ asks' request)
      fun value => gives value ∧ gives' value := by
  induction h with
  | done hvalue =>
    cases h' with
    | done hvalue' => exact .done ⟨hvalue, hvalue'⟩
  | fail _ => exact .fail trivial
  | note _ _ ih =>
    cases h' with
    | note _ hrest => exact .note trivial (ih hrest)
  | ask hrequest _ ih =>
    cases h' with
    | ask hrequest' hnext => exact .ask ⟨hrequest, hrequest'⟩ fun term => ih term (hnext term)

end Plan.Abides

section

variable {rule : Rule}

/-- Arms whose bodies are not fed back as a whole come to results. -/
theorem Arm.tryEach_done (decls : Declarations) (terminal : Terminal) (input : Term) {arms : List Arm}
    (h : ∀ arm ∈ arms, ∀ inner, arm.body ≠ .reduce inner) :
    (Arm.tryEach decls terminal input arms).Abides (fun _ => True) (fun _ => True) (fun _ => True)
      fun step => ∃ result, step = .done result := by
  induction arms with
  | nil => exact (Plan.Abides.any _).bind fun result _ => .done ⟨result, rfl⟩
  | cons arm rest ih =>
    obtain ⟨hbody, hrest⟩ := List.forall_mem_cons.1 h
    rw [Arm.tryEach]
    refine .note trivial ?_
    split
    · exact ih hrest
    · refine (Plan.Abides.any _).bind fun holds _ => ?_
      split
      · refine .note trivial ?_
        unfold Arm.take
        split
        · rename_i inner hinner
          exact absurd hinner (hbody inner)
        · exact (Plan.Abides.any _).bind fun result _ => .done ⟨result, rfl⟩
      · exact ih hrest

/-- A valid rule only nests if it calls nothing and feeds no body back as a whole. -/
theorem Rule.nests {decls : Declarations} (hvalid : rule.validate = .ok ()) (hcallees : rule.callees = [])
    (hbodies : ∀ arm ∈ rule.arms, ∀ inner, arm.body ≠ .reduce inner) : rule.Nests decls := by
  intro input
  have hdone := Arm.tryEach_done decls rule.terminal input hbodies
  refine ((Rule.step_sound hvalid).and hdone).mono (fun _ => id) ?_ fun _ h => h.2
  rintro request ⟨hrequest, -⟩
  cases request with
  | self next => exact ⟨next, rfl⟩
  | call called term =>
    have hmem := hrequest.2.mem_callees
    rw [hcallees] at hmem
    cases hmem

end

/-! ## Runs -/

namespace Reduction

open Eval

variable {α β : Type} {fuel : Nat} {gives : α → Prop} {finals : β → Prop} {x : Eval Session α}
  {decls : Declarations} {runs : Rule → Term → Eval Session Term} {rule : Rule}

/-- With room for no more than `fuel` frames, evaluation comes to an end, leaves the frames as
they were, and what it gives is as described. -/
def Bottoms (fuel : Nat) (gives : α → Prop) (x : Eval Session α) : Prop :=
  ∀ s, s.frames.maxDepth ≤ s.frames.depth + fuel →
    ∃ o s', x s = lift o s' ∧ s'.frames = s.frames ∧ ∀ value, o = .ok value → gives value

theorem Bottoms.modify {f : Session → Session} (hf : ∀ s, (f s).frames = s.frames) :
    Bottoms fuel (fun _ => True) (modify f : Eval Session PUnit) :=
  fun s _ => ⟨.ok (), f s, rfl, hf s, fun _ _ => trivial⟩

namespace Bottoms

theorem lift {o : Outcome α} (h : ∀ value, o = .ok value → gives value) :
    Bottoms fuel gives (Eval.lift o) :=
  fun s _ => ⟨o, s, rfl, rfl, h⟩

theorem outcome (o : Outcome α) : Bottoms fuel (fun _ => True) (Eval.lift o) :=
  .lift fun _ _ => trivial

theorem pure {value : α} (h : gives value) : Bottoms fuel gives (Pure.pure value) :=
  .lift (o := .ok value) fun _ heq => Except.ok.inj heq ▸ h

theorem bind {f : α → Eval Session β} (h : Bottoms fuel gives x)
    (hf : ∀ value, gives value → Bottoms fuel finals (f value)) : Bottoms fuel finals (x >>= f) := by
  intro s hroom
  obtain ⟨o, s₁, hx, hframes, hgives⟩ := h s hroom
  rw [bind_apply, hx]
  cases o with
  | error failure => exact ⟨.error failure, s₁, rfl, hframes, nofun⟩
  | ok value =>
    obtain ⟨o, s', hf', hframes', hfinals⟩ := hf value (hgives value rfl) s₁ (hframes ▸ hroom)
    exact ⟨o, s', hf', hframes'.trans hframes, hfinals⟩

theorem leaving (rule : String) (h : Bottoms fuel gives x) :
    Bottoms fuel gives (Eval.leaving rule x) := by
  intro s hroom
  obtain ⟨o, s', hx, hframes, hgives⟩ := h s hroom
  refine ⟨_, s', leaving_of_eq_lift hx, hframes, fun value heq => ?_⟩
  cases o with
  | ok value => exact hgives _ heq
  | error failure => cases heq

/-- A frame on top takes one of those that there is room for. -/
theorem inFrame (rule : String) (h : Bottoms fuel gives x) :
    Bottoms (fuel + 1) gives (pushFrame rule >>= fun _ => thenPop x) := by
  intro s hroom
  rw [bind_apply]
  rcases pushFrame_cases rule s with ⟨-, s₁, hpush, hpushed⟩ | ⟨-, failure, hpush, -⟩
  · have hroom₁ : s₁.frames.maxDepth ≤ s₁.frames.depth + fuel := by
      rw [hpushed.depth, hpushed.maxDepth]
      omega
    obtain ⟨o, s₂, hx, hframes, hgives⟩ := h s₁ hroom₁
    rw [hpush]
    exact ⟨o, _, thenPop_of_eq_lift hx, (congrArg Frames.pop hframes).trans hpushed.pop, hgives⟩
  · rw [hpush]
    exact ⟨.error failure, s, rfl, rfl, nofun⟩

/-- Without room no frame is put on top. -/
theorem full (rule : String) (x : Eval Session α) :
    Bottoms 0 gives (pushFrame rule >>= fun _ => thenPop x) := by
  intro s hroom
  rw [bind_apply]
  rcases pushFrame_cases rule s with ⟨hless, -⟩ | ⟨-, failure, hpush, -⟩
  · omega
  · rw [hpush]
    exact ⟨.error failure, s, rfl, rfl, nofun⟩

end Bottoms

theorem enter_bottoms {term : Term}
    (h : Bottoms fuel (fun _ => True) (pushFrame rule.name >>= fun _ => thenPop (runs rule term))) :
    Bottoms fuel (fun _ => True) (enter runs rule term) := by
  have hknown : Bottoms fuel (fun _ => True) (known? rule term) :=
    fun s _ => ⟨.ok _, s, rfl, rfl, fun _ _ => trivial⟩
  refine hknown.bind fun known _ => ?_
  cases known with
  | some known => exact .bind (.modify fun _ => rfl) fun _ _ => .pure trivial
  | none =>
    refine .bind (h.leaving rule.name) fun output _ => ?_
    exact .bind (.modify fun _ => rfl) fun _ _ => .pure trivial

theorem exec_bottoms {input : Term} {plan : Plan α}
    (henter : ∀ next, Bottoms fuel (fun _ => True) (enter runs rule next))
    (h : plan.Abides (fun _ => True) (fun _ => True) (fun request => ∃ next, request = .self next)
      gives) :
    Bottoms fuel gives (plan.exec observe (answer runs rule input)) := by
  have hobserve : ∀ n, Bottoms fuel (fun _ => True) (observe n) := fun n => by
    cases n <;> exact .modify fun _ => rfl
  induction h with
  | done hvalue => exact .pure hvalue
  | @fail failure _ => exact .lift (o := .error failure) nofun
  | note _ _ ih => exact .bind (hobserve _) fun _ _ => ih
  | ask hrequest _ ih =>
    obtain ⟨next, rfl⟩ := hrequest
    exact .bind (.bind (.outcome _) fun _ _ => henter next) fun term _ => ih term

/-- A rule that only nests comes to an end as soon as there is fuel for the frames that there is
room for: every frame takes one unit of both. -/
theorem enter_run_bottoms (hrule : rule.Nests decls) (fuel : Nat) (term : Term) :
    Bottoms fuel (fun _ => True) (enter (run decls fuel) rule term) := by
  induction fuel generalizing term with
  | zero => exact enter_bottoms (.full rule.name _)
  | succ fuel ih =>
    refine enter_bottoms (.inFrame rule.name ?_)
    have hspend : Bottoms fuel (fun _ => True) spendStep := fun s _ =>
      ⟨_, _, spendStep_apply s, rfl, fun _ _ => trivial⟩
    refine hspend.bind fun _ _ => .bind (exec_bottoms ih (hrule term)) ?_
    rintro _ ⟨result, rfl⟩
    exact .pure trivial

end Reduction

/-- Every reduction with a rule that only nests comes to an end. -/
theorem Rule.exists_ends_of_nests {decls : Declarations} {rule : Rule} (hrule : rule.Nests decls)
    (term : Term) (s : Session) : ∃ o s', rule.Ends decls term s o s' := by
  have henter := Reduction.enter_run_bottoms hrule s.frames.maxDepth term
  have hbottoms : Reduction.Bottoms s.frames.maxDepth (fun _ => True)
      (rule.reduceWithin s.frames.maxDepth decls term) := by
    have hget : Reduction.Bottoms s.frames.maxDepth (fun _ => True) (get : Eval Session Session) :=
      fun s _ => ⟨.ok s, s, rfl, rfl, fun _ _ => trivial⟩
    refine hget.bind fun session _ => ?_
    split
    · exact .bind (.outcome _) fun _ _ => henter
    · exact henter
  obtain ⟨o, s', h, -⟩ := hbottoms s (Nat.le_add_left _ _)
  exact ⟨o, s', s.frames.maxDepth, h⟩

/-- In a new session a rule that only nests comes to what it settles to if the mode allows for the
cost, and reaches a limit if it does not. -/
theorem Rule.exists_ends_ofMode {decls : Declarations} {rule : Rule} {term : Term}
    {memo : Option Memo} {o : Outcome Term} {cost : Cost} (hrule : rule.Nests decls)
    (hvet : rule.vet decls term = .ok ()) (henters : rule.Enters decls term none o memo cost)
    (ho : o.hitLimit = false) (mode : Mode) :
    ∃ o' s', rule.Ends decls term (.ofMode mode) o' s' ∧ (o' = o ∨ o'.hitLimit = true) ∧
      (o' = o ↔ cost.depth ≤ mode.maxDepth ∧ ∀ budget ∈ mode.budget?, cost.steps ≤ budget) := by
  obtain ⟨o', s', hends⟩ := exists_ends_of_nests hrule term (.ofMode mode)
  have hidle : (Session.ofMode mode).Idle := rfl
  refine ⟨o', s', hends, ?_⟩
  rw [← Cost.fits_ofMode]
  rcases hends.meets hidle hvet henters with ⟨hfits, rfl⟩ | ⟨hexceeds, hlimit⟩
  · exact ⟨.inl rfl, iff_of_true rfl hfits⟩
  · refine ⟨.inr hlimit, iff_of_false ?_ hexceeds⟩
    rintro rfl
    cases ho.symm.trans hlimit

end Reshape
