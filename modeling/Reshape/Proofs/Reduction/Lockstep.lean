import Reshape.Proofs.Reduction.Limits

/-!
# Reductions in lockstep

Two reductions of different terms go in lockstep if each step of the one does what a step
of the other does: they try and take the same arms, ask for the same rules on terms that
are related, and fail alike (`Plan.Twin`). From one session they then come to related
results, or to the same failure, and leave the session the same (`Lockstep.run_together`).

What the two do may differ in one place, where a shrinking rule measures the terms as they are
written. Failures of a kind that is set aside may stop one of them alone.
-/

namespace Reshape

/-! ## Plans -/

/-- The plans note the same, ask for related answers by related requests, and come to related
values or to the same failure. -/
inductive Plan.Twin (answers : Term → Term → Prop) (asks : Request → Request → Prop) {α β : Type}
    (values : α → β → Prop) : Plan α → Plan β → Prop where
  | done {x : α} {y : β} : values x y → Plan.Twin answers asks values (.done x) (.done y)
  | fail (failure : Failure) : Plan.Twin answers asks values (.fail failure) (.fail failure)
  | note (n : Note) {p : Plan α} {q : Plan β} :
      Plan.Twin answers asks values p q → Plan.Twin answers asks values (.note n p) (.note n q)
  | ask {request request' : Request} {f : Term → Plan α} {g : Term → Plan β} :
      asks request request' → (∀ x y, answers x y → Plan.Twin answers asks values (f x) (g y)) →
      Plan.Twin answers asks values (.ask request f) (.ask request' g)

theorem Plan.Twin.bind {answers : Term → Term → Prop} {asks : Request → Request → Prop}
    {α β γ δ : Type} {values : α → β → Prop} {finals : γ → δ → Prop} {p : Plan α} {q : Plan β}
    {f : α → Plan γ} {g : β → Plan δ} (h : p.Twin answers asks values q)
    (hf : ∀ x y, values x y → (f x).Twin answers asks finals (g y)) :
    (p >>= f).Twin answers asks finals (q >>= g) := by
  induction h with
  | done hxy => exact hf _ _ hxy
  | fail failure => exact .fail failure
  | note n _ ih => exact .note n ih
  | ask hasks _ ih => exact .ask hasks ih

theorem Plan.Twin.mono {answers : Term → Term → Prop} {asks asks' : Request → Request → Prop}
    {α β : Type} {values values' : α → β → Prop} {p : Plan α} {q : Plan β}
    (h : p.Twin answers asks values q)
    (hasks : ∀ request request', asks request request' → asks' request request')
    (hvalues : ∀ x y, values x y → values' x y) : p.Twin answers asks' values' q := by
  induction h with
  | done hxy => exact .done (hvalues _ _ hxy)
  | fail failure => exact .fail failure
  | note n _ ih => exact .note n ih
  | ask hrequests _ ih => exact .ask (hasks _ _ hrequests) ih

/-- Related requests of a rule: terms that it may be run on are fed back, or another rule is called
with terms that it may be run on. -/
inductive Request.Twin (admits : Rule → Term → Term → Prop) (rule : Rule) :
    Request → Request → Prop where
  | self {x y : Term} : admits rule x y → Request.Twin admits rule (.self x) (.self y)
  | call {called : Rule} {x y : Term} : admits called x y →
      Request.Twin admits rule (.call called x) (.call called y)

/-- Related outcomes of a step of a rule. -/
inductive Step.Twin (admits : Rule → Term → Term → Prop) (results : Term → Term → Prop)
    (rule : Rule) : Step → Step → Prop where
  | done {x y : Term} : results x y → Step.Twin admits results rule (.done x) (.done y)
  | again {x y : Term} : admits rule x y → Step.Twin admits results rule (.again x) (.again y)

/-! ## Evaluations -/

/-- Related results in the same session, which has no memo, or the same failure, or both cut off;
or one of them failed in a way that is set aside. -/
inductive Eval.Twin (aside : Failure → Prop) {α β : Type} (values : α → β → Prop) :
    EStateM.Result Halt Session α → EStateM.Result Halt Session β → Prop where
  | ok {x : α} {y : β} {s : Session} :
      values x y → s.memo = none → Eval.Twin aside values (.ok x s) (.ok y s)
  | error {halt : Halt} {s : Session} : Eval.Twin aside values (.error halt s) (.error halt s)
  | left {failure : Failure} {s : Session} {r : EStateM.Result Halt Session β} :
      aside failure → Eval.Twin aside values (.error (.failed failure) s) r
  | right {failure : Failure} {s : Session} {r : EStateM.Result Halt Session α} :
      aside failure → Eval.Twin aside values r (.error (.failed failure) s)

/-- Related outcomes, or the second is set aside. -/
inductive Outcome.Twin (aside : Failure → Prop) (results : Term → Term → Prop) :
    Outcome Term → Outcome Term → Prop where
  | ok {x y : Term} : results x y → Outcome.Twin aside results (.ok x) (.ok y)
  | error (failure : Failure) : Outcome.Twin aside results (.error failure) (.error failure)
  | aside {failure : Failure} {o : Outcome Term} :
      aside failure → Outcome.Twin aside results o (.error failure)

/-- A way for reductions of related terms to go in lockstep: the pairs of terms that a rule may be
run on, the pairs of results that it may have, and the failures that are set aside. -/
structure Lockstep (decls : Declarations) where
  admits : Rule → Term → Term → Prop
  results : Term → Term → Prop
  aside : Failure → Prop
  aside_leaving : ∀ {failure : Failure} (rule : String), aside failure → aside (failure.leaving rule)
  step : ∀ {rule : Rule} {x y : Term}, admits rule x y →
    (rule.step decls x).Twin results (Request.Twin admits rule) (Step.Twin admits results rule)
      (rule.step decls y)
  feedback : ∀ {rule : Rule} {x y next next' : Term}, admits rule x y → admits rule next next' →
    rule.admitFeedback x next = rule.admitFeedback y next' ∨ aside ⟨.notShrinking rule.name, []⟩

namespace Lockstep

open Eval Reduction

variable {decls : Declarations} (lock : Lockstep decls) {α β γ δ : Type} {values : α → β → Prop}
  {finals : γ → δ → Prop} {x : Eval Session α} {y : Eval Session β}
  {runs : Rule → Term → Eval Session Term}

/-- From a session without a memo, the evaluations come to twins. -/
def Together (values : α → β → Prop) (x : Eval Session α) (y : Eval Session β) : Prop :=
  ∀ s, s.memo = none → Eval.Twin lock.aside values (x s) (y s)

namespace Together

variable {lock}

theorem pure {a : α} {b : β} (h : values a b) :
    lock.Together values (Pure.pure a : Eval Session α) (Pure.pure b : Eval Session β) :=
  fun _ hmemo => .ok h hmemo

theorem throw (halt : Halt) :
    lock.Together values (MonadExcept.throw halt : Eval Session α)
      (MonadExcept.throw halt : Eval Session β) :=
  fun _ _ => .error

theorem bind {f : α → Eval Session γ} {g : β → Eval Session δ} (h : lock.Together values x y)
    (hf : ∀ a b, values a b → lock.Together finals (f a) (g b)) :
    lock.Together finals (x >>= f) (y >>= g) := by
  intro s hmemo
  have htwin := h s hmemo
  rw [bind_apply, bind_apply]
  generalize x s = r, y s = r' at htwin
  cases htwin with
  | ok hvalues hmemo' => exact hf _ _ hvalues _ hmemo'
  | error => exact .error
  | left haside => exact .left haside
  | right haside => exact .right haside

theorem tick (f : Meter → Meter) :
    lock.Together (fun _ _ => True) (Reduction.tick f) (Reduction.tick f) :=
  fun _ hmemo => .ok trivial hmemo

theorem spendStep :
    lock.Together (fun _ _ => True) Reduction.spendStep Reduction.spendStep := by
  intro s hmemo
  rw [spendStep_apply]
  cases s.meter.step.check with
  | ok _ => exact .ok trivial hmemo
  | error failure => exact .error

theorem observe (n : Note) :
    lock.Together (fun _ _ => True) (Reduction.observe n) (Reduction.observe n) := by
  cases n <;> exact .tick _

theorem leaving (rule : String) (h : lock.Together values x y) :
    lock.Together values (Eval.leaving rule x) (Eval.leaving rule y) := by
  intro s hmemo
  have htwin := h s hmemo
  simp only [Eval.leaving]
  generalize x s = r, y s = r' at htwin
  cases htwin with
  | ok hvalues hmemo' => exact .ok hvalues hmemo'
  | @error halt _ => cases halt <;> exact .error
  | left haside => exact .left (lock.aside_leaving rule haside)
  | right haside => exact .right (lock.aside_leaving rule haside)

theorem thenPop (h : lock.Together values x y) :
    lock.Together values (Reduction.thenPop x) (Reduction.thenPop y) := by
  intro s hmemo
  have htwin := h s hmemo
  simp only [Reduction.thenPop]
  generalize x s = r, y s = r' at htwin
  cases htwin with
  | ok hvalues hmemo' => exact .ok hvalues hmemo'
  | error => exact .error
  | left haside => exact .left haside
  | right haside => exact .right haside

theorem pushFrame (rule : String) :
    lock.Together (fun _ _ => True) (Reduction.pushFrame rule) (Reduction.pushFrame rule) := by
  intro s hmemo
  rcases pushFrame_cases rule s with ⟨-, s₁, hpush, hpushed⟩ | ⟨-, failure, hpush, -⟩
  · rw [hpush]
    exact .ok trivial (hpushed.memo.trans hmemo)
  · rw [hpush]
    exact .error

/-- Plans that are twins are carried out together if their requests are answered together. -/
theorem exec {asks : Request → Request → Prop} {ask ask' : Request → Eval Session Term}
    (hask : ∀ request request', asks request request' →
      lock.Together lock.results (ask request) (ask' request'))
    {p : Plan α} {q : Plan β} (h : p.Twin lock.results asks values q) :
    lock.Together values (p.exec Reduction.observe ask) (q.exec Reduction.observe ask') := by
  induction h with
  | done hxy => exact .pure hxy
  | fail failure => exact .throw _
  | note n _ ih => exact .bind (.observe n) fun _ _ _ => ih
  | ask hasks _ ih => exact .bind (hask _ _ hasks) ih

end Together

/-- A fed back term is admitted for the one as for the other, or a failure to shrink is set
aside. -/
theorem admit_together {rule : Rule} {a b next next' : Term} (h : lock.admits rule a b)
    (hnext : lock.admits rule next next') :
    lock.Together (fun _ _ => True) (Eval.lift (rule.admitFeedback a next))
      (Eval.lift (rule.admitFeedback b next')) := by
  intro s hmemo
  rcases lock.feedback h hnext with hsame | haside
  · rw [hsame]
    cases rule.admitFeedback b next' with
    | ok _ => exact .ok trivial hmemo
    | error failure => exact .error
  · cases hx : rule.admitFeedback a next with
    | error failure => exact .left (Rule.admitFeedback_eq_error hx ▸ haside)
    | ok _ =>
      cases hy : rule.admitFeedback b next' with
      | error failure => exact .right (Rule.admitFeedback_eq_error hy ▸ haside)
      | ok _ => exact .ok trivial hmemo

/-- Rules are run together on the terms that they admit. -/
def RunsTogether (runs : Rule → Term → Eval Session Term) : Prop :=
  ∀ {rule a b}, lock.admits rule a b → lock.Together lock.results (runs rule a) (runs rule b)

variable {lock}

/-- Without a memo nothing is recorded. -/
theorem remember_of_memo_eq_none {rule : Rule} {input output : Term} {s : Session}
    (hmemo : s.memo = none) :
    (remember rule input output >>= fun _ => pure output : Eval Session Term) s = .ok output s := by
  obtain ⟨meter, frames, _⟩ := s
  obtain rfl : _ = none := hmemo
  rfl

theorem enter_together (hruns : lock.RunsTogether runs) {rule : Rule} {a b : Term}
    (h : lock.admits rule a b) :
    lock.Together lock.results (enter runs rule a) (enter runs rule b) := by
  intro s hmemo
  have hunknown : ∀ term, s.memo.bind (·.get? rule term) = none := fun term => by
    rw [hmemo, Option.bind_none]
  rw [enter_eq_ran (hunknown a), enter_eq_ran (hunknown b)]
  have hbelow := (Together.bind (.pushFrame rule.name) fun _ _ _ => (hruns h).thenPop).leaving rule.name
  refine hbelow.bind (fun output output' houtput => ?_) s hmemo
  intro s' hmemo'
  rw [remember_of_memo_eq_none hmemo', remember_of_memo_eq_none hmemo']
  exact .ok houtput hmemo'

theorem answer_together (hruns : lock.RunsTogether runs) {rule : Rule} {a b : Term}
    (h : lock.admits rule a b) {request request' : Request}
    (hasks : Request.Twin lock.admits rule request request') :
    lock.Together lock.results (answer runs rule a request) (answer runs rule b request') := by
  cases hasks with
  | self hnext => exact .bind (lock.admit_together h hnext) fun _ _ _ => enter_together hruns hnext
  | call hcalled => exact enter_together hruns hcalled

theorem proceed_together (hruns : lock.RunsTogether runs) {rule : Rule} {a b : Term}
    (h : lock.admits rule a b) {step step' : Step}
    (hstep : Step.Twin lock.admits lock.results rule step step') :
    lock.Together lock.results (proceed runs rule a step) (proceed runs rule b step') := by
  cases hstep with
  | done hresult => exact .pure hresult
  | again hnext =>
    exact .bind (lock.admit_together h hnext) fun _ _ _ => .bind (.tick _) fun _ _ _ => hruns hnext

/-- Runs of a rule on terms that it admits go together. -/
theorem run_together (lock : Lockstep decls) (fuel : Nat) : lock.RunsTogether (run decls fuel) := by
  induction fuel with
  | zero => exact fun _ => .throw _
  | succ fuel ih =>
    intro rule a b h
    -- What a step asks for, and the next step, are run with less fuel.
    have hanswer : ∀ request request', Request.Twin lock.admits rule request request' →
        lock.Together lock.results (answer (run decls fuel) rule a request)
          (answer (run decls fuel) rule b request') := fun _ _ => answer_together ih h
    refine .bind .spendStep fun _ _ _ => .bind (.exec hanswer (lock.step h)) fun _ _ hstep => ?_
    exact proceed_together ih h hstep

end Lockstep

/-- Reductions of terms that a rule admits, from an idle session without a memo, end together: the
other one has a related result or the same failure, or one of them fails in a way that is set
aside. -/
theorem Rule.Ends.twin {decls : Declarations} (lock : Lockstep decls) {rule : Rule} {a b : Term}
    {s s' : Session} {o : Outcome Term} (h : rule.Ends decls a s o s') (hidle : s.Idle)
    (hmemo : s.memo = none) (hadmits : lock.admits rule a b)
    (hvet : rule.vet decls a = rule.vet decls b) :
    (∃ failure, o = .error failure ∧ lock.aside failure) ∨
      ∃ o' s'', rule.Ends decls b s o' s'' ∧ o.Twin lock.aside lock.results o' := by
  obtain ⟨fuel, h⟩ := h
  have htwin : Eval.Twin lock.aside lock.results (rule.reduceWithin fuel decls a s)
      (rule.reduceWithin fuel decls b s) := by
    rw [reduceWithin_of_idle hidle, reduceWithin_of_idle hidle, hvet, Eval.bind_apply, Eval.bind_apply]
    cases rule.vet decls b with
    | error failure => exact .error
    | ok _ => exact Lockstep.enter_together (lock.run_together fuel) hadmits s hmemo
  rw [h] at htwin
  cases hb : rule.reduceWithin fuel decls b s with
  | ok y s'' =>
    rw [hb] at htwin
    cases o with
    | ok x =>
      cases htwin with
      | ok hresults => exact .inr ⟨.ok y, _, ⟨fuel, hb⟩, .ok hresults⟩
    | error failure =>
      cases htwin with
      | left haside => exact .inl ⟨failure, rfl, haside⟩
  | error halt s'' =>
    rw [hb] at htwin
    cases o with
    | ok x =>
      cases htwin with
      | right haside => exact .inr ⟨.error _, _, ⟨fuel, hb⟩, .aside haside⟩
    | error failure =>
      cases htwin with
      | error => exact .inr ⟨.error failure, _, ⟨fuel, hb⟩, .error failure⟩
      | left haside => exact .inl ⟨failure, rfl, haside⟩
      | right haside => exact .inr ⟨.error _, _, ⟨fuel, hb⟩, .aside haside⟩

end Reshape
