import Reshape.Proofs.Template.Requests

/-!
# What any step notes and calls

A rule that is called stands in the template that calls it, with all its arms, but what it calls is
not called by the rule around it. `Rule.calls` are the rules that a rule calls itself. Building a
template and evaluating a guard call no others and note nothing (`Template.build_callsAmong`). So the
notes of a step are those of its arms: each arm is tried before it is taken, at most one is taken, and
a step goes on with a term only if one was (`Rule.step_tries`). What fails in the step itself, and not
in what it asks for, has left no rule yet, and is no limit: limits are left to the reduction around it.
This holds of every rule, whether it is valid or not.
-/

namespace Reshape

mutual

/-- The rules that building a template calls. -/
def Template.calls : Template → List Rule
  | .capture _ => []
  | .literal _ => []
  | .seq items => Template.callsItems items
  | .text pieces => Template.callsPieces pieces
  | .recase _ inner => inner.calls
  | .length inner => inner.calls
  | .apply _ args => Template.callsAll args
  | .function _ receiver params result =>
    Template.callsOption receiver ++ params.calls ++ result.calls
  | .mapFields source key filter value _ _ =>
    source.calls ++ Template.callsOption key ++ Guard.callsOption filter ++ value.calls
  | .reduce inner => inner.calls
  | .call rule inner => rule :: inner.calls
  | .undefined _ => []
termination_by structural template => template

/-- The rules that building the items of a sequence calls. -/
def Template.callsItems : List (SeqItem Template) → List Rule
  | [] => []
  | .element template :: rest => template.calls ++ Template.callsItems rest
  | .splice template :: rest => template.calls ++ Template.callsItems rest
termination_by structural items => items

/-- The rules that building the pieces of a text calls. -/
def Template.callsPieces : List (TextPiece Template) → List Rule
  | [] => []
  | .literal _ :: rest => Template.callsPieces rest
  | .insert template :: rest => template.calls ++ Template.callsPieces rest
termination_by structural pieces => pieces

/-- The rules that building a list of templates calls. -/
def Template.callsAll : List Template → List Rule
  | [] => []
  | template :: rest => template.calls ++ Template.callsAll rest
termination_by structural templates => templates

/-- The rules that building a template that may be missing calls. -/
def Template.callsOption : Option Template → List Rule
  | none => []
  | some template => template.calls
termination_by structural template => template

/-- The rules that evaluating a guard calls. -/
def Guard.calls : Guard → List Rule
  | .equal left right => left.calls ++ right.calls
  | .fits sub sup => sub.calls ++ sup.calls
  | .negation inner => inner.calls
  | .all guards => Guard.callsAll guards
termination_by structural guard => guard

/-- The rules that evaluating a list of guards calls. -/
def Guard.callsAll : List Guard → List Rule
  | [] => []
  | guard :: rest => guard.calls ++ Guard.callsAll rest
termination_by structural guards => guards

/-- The rules that evaluating a guard that may be missing calls. -/
def Guard.callsOption : Option Guard → List Rule
  | none => []
  | some guard => guard.calls
termination_by structural guard => guard

end

/-- The rules that an arm calls. -/
def Arm.calls (arm : Arm) : List Rule := Guard.callsOption arm.guard ++ arm.body.calls

/-- The rules that a rule calls itself. -/
def Rule.calls (rule : Rule) : List Rule := rule.arms.flatMap Arm.calls

/-- The failure of a step itself has left no rule yet, and no limit was reached. -/
structure Failure.OfStep (failure : Failure) : Prop where
  trail : failure.trail = []
  limit : failure.hitLimit = false

/-- Only these rules are called. -/
def Request.CallsAmong (rules : List Rule) : Request → Prop
  | .self _ => True
  | .call called _ => called ∈ rules

/-- A plan of templates and guards that call only these rules: it notes nothing, and its own failures
are those of a step. -/
abbrev Plan.CallsAmong {α : Type} (rules : List Rule) (plan : Plan α) : Prop :=
  plan.Abides Failure.OfStep (fun _ => False) (·.CallsAmong rules) fun _ => True

namespace Plan.CallsAmong

variable {α : Type} {rules more : List Rule} {plan : Plan α}

theorem mono (h : plan.CallsAmong rules) (hmore : rules ⊆ more) : plan.CallsAmong more := by
  refine Abides.mono h (fun _ => id) (fun request hrequest => ?_) fun _ => id
  cases request with
  | self next => trivial
  | call called term => exact hmore hrequest

theorem need {o : Except Failure α} {expected : String} {found : Term.Kind}
    (h : ∀ {failure}, o = .error failure → failure = ⟨.wrongKind expected found, []⟩) :
    (Plan.lift o).CallsAmong rules :=
  Abides.need (fun _ _ => ⟨rfl, rfl⟩) h

end Plan.CallsAmong

section

variable {decls : Declarations}

mutual

/-- Building a template calls only the rules that the template calls, and notes nothing. -/
theorem Template.build_callsAmong (template : Template) (captures : Captures) :
    (template.build decls captures).CallsAmong template.calls := by
  match template with
  | .capture name =>
    refine .lift fun failure h => ?_
    rw [(Captures.lookup_eq_error h).2]
    exact ⟨rfl, rfl⟩
  | .literal term => exact .pure _
  | .seq items => exact (Template.buildItems_callsAmong items captures).bind fun _ _ => .pure _
  | .text pieces => exact (Template.buildPieces_callsAmong pieces captures).bind fun _ _ => .pure _
  | .recase op inner =>
    exact (Template.build_callsAmong inner captures).bind fun _ _ =>
      (Plan.CallsAmong.need Term.needText_eq_error).bind fun _ _ => .pure _
  | .length inner =>
    exact (Template.build_callsAmong inner captures).bind fun _ _ =>
      Plan.CallsAmong.need Term.needLength_eq_error
  | .apply head args => exact (Template.buildAll_callsAmong args captures).bind fun _ _ => .pure _
  | .function kind receiver params result =>
    refine ((Template.buildOption_callsAmong receiver captures).mono ?_).bind fun _ _ => ?_
    · simp [Template.calls]
    refine ((Template.build_callsAmong params captures).mono ?_).bind fun _ _ => ?_
    · simp [Template.calls]
    refine (Plan.CallsAmong.need Term.needSeq_eq_error).bind fun _ _ => ?_
    refine ((Template.build_callsAmong result captures).mono ?_).bind fun _ _ => .pure _
    simp [Template.calls]
  | .mapFields source key filter value readonly optional =>
    refine ((Template.build_callsAmong source captures).mono ?_).bind fun _ _ => ?_
    · simp [Template.calls]
    refine (Plan.CallsAmong.need Term.needComposite_eq_error).bind fun fields _ => ?_
    refine Plan.Abides.bind (.foldlM (fun mapped field => ?_) fields []) fun _ _ => .pure _
    refine mapField_abides (fun _ _ => ⟨rfl, rfl⟩) ?_ ?_ ?_ mapped
    · refine (Guard.holdsIfAny_callsAmong filter _).mono ?_
      grind [Template.calls]
    · refine (Template.buildOption_callsAmong key _).mono ?_
      simp [Template.calls]
    · refine (Template.build_callsAmong value _).mono ?_
      grind [Template.calls]
  | .reduce inner =>
    exact (Template.build_callsAmong inner captures).bind fun _ _ => .ask trivial fun _ => .done trivial
  | .call rule inner =>
    refine ((Template.build_callsAmong inner captures).mono (List.subset_cons_self _ _)).bind fun _ _ => ?_
    exact .ask List.mem_cons_self fun _ => .done trivial
  | .undefined reason => exact .fail ⟨rfl, rfl⟩
termination_by structural template

theorem Template.buildItems_callsAmong (items : List (SeqItem Template)) (captures : Captures) :
    (Template.buildItems decls items captures).CallsAmong (Template.callsItems items) := by
  match items with
  | [] => exact .pure _
  | .element template :: rest =>
    refine ((Template.build_callsAmong template captures).mono ?_).bind fun _ _ => ?_
    · simp [Template.callsItems]
    refine ((Template.buildItems_callsAmong rest captures).mono ?_).bind fun _ _ => .pure _
    simp [Template.callsItems]
  | .splice template :: rest =>
    refine ((Template.build_callsAmong template captures).mono ?_).bind fun _ _ => ?_
    · simp [Template.callsItems]
    refine (Plan.CallsAmong.need Term.needSeq_eq_error).bind fun _ _ => ?_
    refine ((Template.buildItems_callsAmong rest captures).mono ?_).bind fun _ _ => .pure _
    simp [Template.callsItems]
termination_by structural items

theorem Template.buildPieces_callsAmong (pieces : List (TextPiece Template)) (captures : Captures) :
    (Template.buildPieces decls pieces captures).CallsAmong (Template.callsPieces pieces) := by
  match pieces with
  | [] => exact .pure _
  | .literal s :: rest => exact (Template.buildPieces_callsAmong rest captures).bind fun _ _ => .pure _
  | .insert template :: rest =>
    refine ((Template.build_callsAmong template captures).mono ?_).bind fun _ _ => ?_
    · simp [Template.callsPieces]
    refine (Plan.CallsAmong.need Term.needFragment_eq_error).bind fun _ _ => ?_
    refine ((Template.buildPieces_callsAmong rest captures).mono ?_).bind fun _ _ => .pure _
    simp [Template.callsPieces]
termination_by structural pieces

theorem Template.buildAll_callsAmong (templates : List Template) (captures : Captures) :
    (Template.buildAll decls templates captures).CallsAmong (Template.callsAll templates) := by
  match templates with
  | [] => exact .pure _
  | template :: rest =>
    refine ((Template.build_callsAmong template captures).mono ?_).bind fun _ _ => ?_
    · simp [Template.callsAll]
    refine ((Template.buildAll_callsAmong rest captures).mono ?_).bind fun _ _ => .pure _
    simp [Template.callsAll]
termination_by structural templates

theorem Template.buildOption_callsAmong (template : Option Template) (captures : Captures) :
    (Template.buildOption decls template captures).CallsAmong (Template.callsOption template) := by
  match template with
  | none => exact .pure _
  | some template => exact (Template.build_callsAmong template captures).bind fun _ _ => .pure _
termination_by structural template

theorem Guard.holds_callsAmong (guard : Guard) (captures : Captures) :
    (guard.holds decls captures).CallsAmong guard.calls := by
  match guard with
  | .equal left right | .fits left right =>
    refine ((Template.build_callsAmong left captures).mono ?_).bind fun _ _ => ?_
    · simp [Guard.calls]
    refine ((Template.build_callsAmong right captures).mono ?_).bind fun _ _ => .pure _
    simp [Guard.calls]
  | .negation inner => exact (Guard.holds_callsAmong inner captures).bind fun _ _ => .pure _
  | .all guards => exact Guard.allHold_callsAmong guards captures
termination_by structural guard

theorem Guard.allHold_callsAmong (guards : List Guard) (captures : Captures) :
    (Guard.allHold decls guards captures).CallsAmong (Guard.callsAll guards) := by
  match guards with
  | [] => exact .pure _
  | guard :: rest =>
    refine ((Guard.holds_callsAmong guard captures).mono ?_).bind fun holds _ => ?_
    · simp [Guard.callsAll]
    cases holds with
    | false => exact .pure _
    | true =>
      refine (Guard.allHold_callsAmong rest captures).mono ?_
      simp [Guard.callsAll]
termination_by structural guards

theorem Guard.holdsIfAny_callsAmong (guard : Option Guard) (captures : Captures) :
    (Guard.holdsIfAny decls guard captures).CallsAmong (Guard.callsOption guard) := by
  match guard with
  | none => exact .pure _
  | some guard => exact Guard.holds_callsAmong guard captures
termination_by structural guard

end

end

/-! ## Steps -/

/-- A plan for a step that calls only these rules: arms are tried until one is taken. With `tried`, one
has been tried before. -/
inductive Plan.Tries (rules : List Rule) : (tried : Bool) → Plan Step → Prop where
  | done {tried : Bool} (result : Term) : Plan.Tries rules tried (.done (.done result))
  | fail {tried : Bool} {failure : Failure} : failure.OfStep → Plan.Tries rules tried (.fail failure)
  | tried {tried : Bool} {rest : Plan Step} :
      Plan.Tries rules true rest → Plan.Tries rules tried (.note .armTried rest)
  | taken {rest : Plan Step} : rest.CallsAmong rules → Plan.Tries rules true (.note .armTaken rest)
  | ask {tried : Bool} {request : Request} {next : Term → Plan Step} :
      request.CallsAmong rules → (∀ term, Plan.Tries rules tried (next term)) →
      Plan.Tries rules tried (.ask request next)

variable {rules : List Rule} {decls : Declarations} {input : Term} {tried : Bool}

/-- Whatever it notes, such a plan calls only these rules. -/
theorem Plan.Tries.abides {plan : Plan Step} (h : plan.Tries rules tried) :
    plan.Abides Failure.OfStep (fun _ => True) (·.CallsAmong rules) fun _ => True := by
  induction h with
  | done result => exact .done trivial
  | fail hfailure => exact .fail hfailure
  | tried _ ih => exact .note trivial ih
  | taken hrest =>
    exact .note trivial (Abides.mono hrest (fun _ _ => trivial) (fun _ => id) fun _ => id)
  | ask hrequest _ ih => exact .ask hrequest ih

/-- What comes before the arms notes nothing of them. -/
theorem Plan.CallsAmong.tries {α : Type} {plan : Plan α} {f : α → Plan Step}
    (h : plan.CallsAmong rules) (hf : ∀ value, (f value).Tries rules tried) :
    (plan >>= f).Tries rules tried := by
  induction h with
  | done _ => exact hf _
  | fail hfailure => exact .fail hfailure
  | note hnote => cases hnote
  | ask hrequest _ ih => exact .ask hrequest ih

theorem Arm.take_callsAmong (arm : Arm) (captures : Captures) :
    (arm.take decls captures).CallsAmong arm.body.calls := by
  unfold Arm.take
  split
  · rename_i inner hbody
    rw [hbody]
    exact (inner.build_callsAmong captures).bind fun _ _ => .pure _
  · exact (arm.body.build_callsAmong captures).bind fun _ _ => .pure _

theorem Arm.tryEach_tries (terminal : Terminal) {arms : List Arm}
    (h : ∀ arm ∈ arms, arm.calls ⊆ rules) (tried : Bool) :
    (Arm.tryEach decls terminal input arms).Tries rules tried := by
  induction arms generalizing tried with
  | nil =>
    refine Plan.CallsAmong.tries (.lift fun failure hfailure => ?_) fun result => .done result
    obtain ⟨reason, -, rfl⟩ := Terminal.result_eq_error hfailure
    exact ⟨rfl, rfl⟩
  | cons arm rest ih =>
    obtain ⟨harm, hrest⟩ := List.forall_mem_cons.1 h
    obtain ⟨hguard, hbody⟩ := List.append_subset.1 harm
    rw [Arm.tryEach]
    refine .tried ?_
    cases arm.pattern.captures? decls input with
    | none => exact ih hrest true
    | some captures =>
      refine ((Guard.holdsIfAny_callsAmong arm.guard captures).mono hguard).tries fun holds => ?_
      cases holds with
      | false => exact ih hrest true
      | true => exact .taken ((arm.take_callsAmong captures).mono hbody)

/-- A step notes that an arm is tried before it is taken, takes one at most, and goes on only if it
has taken one; and it calls only the rules that the rule calls. -/
theorem Rule.step_tries (rule : Rule) (decls : Declarations) (input : Term) :
    (rule.step decls input).Tries rule.calls false :=
  Arm.tryEach_tries rule.terminal (fun _ harm _ => List.mem_flatMap_of_mem harm) false

end Reshape
