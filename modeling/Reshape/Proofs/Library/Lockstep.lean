import Reshape.Library.Naturals
import Reshape.Proofs.Pattern.Gathering
import Reshape.Proofs.Template.Likeness

/-!
# The library in lockstep

Rules that treat terms that are alike the same are reduced on them in lockstep. One rule of
the library compares two captured terms with each other: `greater_than` passes its operands
on from step to step, so it is reduced in lockstep, too, as soon as one of the operands is
settled (`Library.lockstep`).
-/

namespace Reshape

namespace Library

variable {decls : Declarations} {like : Likeness decls} {a b : Term} {c c' : Captures}

/-- If the term is a sequence of two operands or more, one of the first two is settled. -/
def OperandsSettled (like : Likeness decls) (term : Term) : Prop :=
  ∀ x y rest, decls.resolve term = .seq (x :: y :: rest) → like.settled x ∨ like.settled y

/-- The captures bind the operands of the rule, one of which is settled. -/
structure Operands (like : Likeness decls) (c : Captures) (x y : Term) : Prop where
  first : c.lookup "a" = .ok x
  second : c.lookup "b" = .ok y
  settled : like.settled x ∨ like.settled y

/-- A tuple that binds the operands first binds them whatever follows. -/
theorem operands_of_tuple {more : List Pattern} (hsettled : OperandsSettled like a)
    (h : (Pattern.tuple (.bind "a" :: .bind "b" :: more)).captures? decls a = some c) :
    ∃ x y, Operands like c x y := by
  obtain ⟨items, hitems, htakes⟩ := Pattern.exists_of_extend?_seq h
  rw [Pattern.captures?, Pattern.tuple, Pattern.extend?_seq hitems htakes, Pattern.extendEnds?] at h
  have hlength : items.length = more.length + 2 := by simpa using htakes.2 rfl
  rw [List.take_of_length_le (by simp [hlength])] at h
  rcases items with _ | ⟨x, _ | ⟨y, rest⟩⟩
  · simp at hlength
  · simp at hlength
  · have hrest : rest.length = more.length := by simpa using hlength
    let both : Captures := ⟨(Table.set ∅ "a" x).set "b" y⟩
    have hmore : Pattern.extendEach? decls more rest both = some c := by
      obtain ⟨ended, hends, hbetween⟩ := Option.bind_eq_some_iff.1 h
      obtain ⟨begun, hfront, hback⟩ := Option.bind_eq_some_iff.1 hends
      cases hback
      cases hbetween
      exact hfront
    have hkept := (Pattern.extendEach?_binds more hrest hmore).kept
    refine ⟨x, y, ?_, ?_, hsettled x y rest hitems⟩
    · rw [Captures.lookup, hkept "a" x rfl]
    · rw [Captures.lookup, hkept "b" y rfl]

variable {x y : Term} {asks : Request → Request → Prop}

/-- Captures that are alike bind operands that are alike. -/
theorem Operands.alike (h : Operands like c x y) (hc : like.Captured [] c c') :
    ∃ x' y', c'.lookup "a" = .ok x' ∧ c'.lookup "b" = .ok y' ∧ like.alike x x' ∧ like.alike y y' := by
  have hlookup : ∀ {name term}, c.lookup name = .ok term →
      ∃ term', c'.lookup name = .ok term' ∧ like.alike term term' := by
    intro name term h
    have hbound := hc.bound name
    rw [Captures.lookup] at h ⊢
    generalize c.get? name = bound, c'.get? name = bound' at h hbound
    cases hbound with
    | none => cases h
    | some halike =>
      cases h
      exact ⟨_, rfl, halike⟩
  obtain ⟨x', hx', hx⟩ := hlookup h.first
  obtain ⟨y', hy', hy⟩ := hlookup h.second
  exact ⟨x', y', hx', hy', hx, hy⟩

/-- The operands are compared with each other alike. -/
theorem Operands.equal_twin (h : Operands like c x y) (hc : like.Captured [] c c') :
    like.Twin asks Eq (Guard.holds decls (.equal (.capture "a") (.capture "b")) c)
      (Guard.holds decls (.equal (.capture "a") (.capture "b")) c') := by
  obtain ⟨x', y', hx', hy', hx, hy⟩ := h.alike hc
  have heq : decls.equivalent x y = decls.equivalent x' y' := by
    rw [Declarations.equivalent, Declarations.equivalent, like.fits h.settled hx hy,
      like.fits h.settled.symm hy hx]
  simp only [Guard.holds, Template.build, h.first, h.second, hx', hy', Plan.lift, Plan.done_bind, heq]
  exact .done rfl

/-- The rule may be run on the terms: they are alike, and the rule treats such terms the same, or
is `greater_than` and has an operand that is settled. -/
structure Admits (like : Likeness decls) (rule : Rule) (a b : Term) : Prop where
  alike : like.alike a b
  rule : like.Suits rule ∨ rule = greaterThan ∧ OperandsSettled like a

theorem asks_of_suits (like : Likeness decls) (rule : Rule) :
    like.Asks False (Request.Twin (Admits like) rule) :=
  ⟨False.elim, fun _ _ _ hsuits halike => .call ⟨halike, .inl hsuits⟩⟩

/-- The operands are fed back as they are. -/
theorem Operands.loop_twin (h : Operands like c x y) (hc : like.Captured [] c c') {pattern : Pattern}
    {guard : Option Guard} {count : Template}
    (hcount : ∀ part ∈ count.parts, like.SuitsPart False part) :
    like.Twin (Request.Twin (Admits like) greaterThan)
      (Step.Twin (Admits like) like.alike greaterThan)
      (Arm.take decls ⟨pattern, guard, loop [.capture "a", .capture "b", count]⟩ c)
      (Arm.take decls ⟨pattern, guard, loop [.capture "a", .capture "b", count]⟩ c') := by
  obtain ⟨x', y', hx', hy', hx, hy⟩ := h.alike hc
  have htwin := Likeness.build_twin (asks_of_suits like greaterThan) count hcount hc
  simp only [Arm.take, loop, tupleOf, List.map_cons, List.map_nil, Template.build,
    Template.buildItems, h.first, h.second, hx', hy', Plan.lift, Plan.done_bind, Plan.pure_eq,
    Plan.bind_assoc]
  refine htwin.bind fun n n' hn => .done (.again ⟨?_, .inr ⟨rfl, ?_⟩⟩)
  · exact Likeness.alike_seq (.cons hx (.cons hy (.cons hn.1 .nil)))
  · rintro _ _ _ ⟨⟩
    exact h.settled

/-- An arm whose pattern binds the operands. -/
theorem armTwin_of_operands {finals : Step → Step → Prop} {arm : Arm} (hab : like.alike a b)
    (hpattern : arm.pattern.Linear)
    (hbinds : ∀ c, arm.pattern.captures? decls a = some c → ∃ x y, Operands like c x y)
    (htwin : ∀ c c' x y, Operands like c x y → like.Captured [] c c' →
      like.Twin asks Eq (Guard.holdsIfAny decls arm.guard c) (Guard.holdsIfAny decls arm.guard c') ∧
        like.Twin asks finals (arm.take decls c) (arm.take decls c')) :
    like.ArmTwin asks finals a b arm := by
  have hcaptures := Likeness.captures?_alike hpattern hab
  unfold Likeness.ArmTwin
  generalize arm.pattern.captures? decls a = bound, arm.pattern.captures? decls b = bound'
    at hcaptures hbinds
  cases hcaptures with
  | none => exact .none
  | some hc =>
    obtain ⟨x, y, h⟩ := hbinds _ rfl
    exact .some (htwin _ _ x y h hc)

theorem linear_counting : greaterThan.counting.Linear := ⟨rfl, by decide⟩

/-- An arm that compares with a length and gives a boolean. -/
theorem armTwin_of_length (hab : like.alike a b) (number : String) (value : Bool) :
    like.ArmTwin (Request.Twin (Admits like) greaterThan)
      (Step.Twin (Admits like) like.alike greaterThan) a b
      ⟨greaterThan.counting, some (lengthIs "count" number), .literal (.bool value)⟩ := by
  refine Likeness.arm_twin (asks_of_suits like greaterThan) (fun _ _ h => .done h) False.elim
    linear_counting ?_ ?_ hab
  · rintro _ ⟨⟩
    exact .inl trivial
  · exact List.forall_mem_cons.2 ⟨trivial, List.forall_mem_cons.2 ⟨trivial, List.forall_mem_cons.2
      ⟨trivial, List.forall_mem_singleton.2 (Likeness.alike_atom _)⟩⟩⟩

/-- A step of `greater_than` on terms that are alike, with an operand that is settled. -/
theorem greaterThan_twin (hab : like.alike a b) (hsettled : OperandsSettled like a) :
    like.Twin (Request.Twin (Admits like) greaterThan) (Step.Twin (Admits like) like.alike greaterThan)
      (greaterThan.step decls a) (greaterThan.step decls b) := by
  have hpair : pair.Linear := ⟨rfl, by decide⟩
  have hdone : ∀ x y, like.alike x y →
      Step.Twin (Admits like) like.alike greaterThan (.done x) (.done y) := fun _ _ h => .done h
  have htally : ∀ part ∈ (Template.seq [tally, .splice (.capture "count")]).parts,
      like.SuitsPart False part :=
    List.forall_mem_cons.2 ⟨trivial, List.forall_mem_cons.2 ⟨Likeness.alike_atom _,
      List.forall_mem_singleton.2 trivial⟩⟩
  refine Likeness.tryEach_twin (Likeness.terminal_twin _ (List.forall_mem_nil _) hdone hab) ?_
  have hstart : ∀ part ∈ emptySeq.parts, like.SuitsPart False part :=
    List.forall_mem_singleton.2 (Likeness.alike_seq .nil)
  have hfalse : ∀ part ∈ (Template.literal (.bool false)).parts, like.SuitsPart False part :=
    List.forall_mem_singleton.2 (Likeness.alike_atom _)
  refine List.forall_mem_cons.2 ⟨?start, List.forall_mem_cons.2 ⟨?equal, List.forall_mem_cons.2
    ⟨?second, List.forall_mem_cons.2 ⟨?first, List.forall_mem_singleton.2 ?more⟩⟩⟩⟩
  -- The first and the last arm feed the operands back, so they stay settled; the second one
  -- compares them with each other.
  case start =>
    exact armTwin_of_operands hab hpair (fun c => operands_of_tuple hsettled)
      fun c c' x y h hc => ⟨.done rfl, h.loop_twin hc hstart⟩
  case equal =>
    exact armTwin_of_operands hab linear_counting (fun c => operands_of_tuple hsettled)
      fun c c' x y h hc => ⟨h.equal_twin hc,
        Likeness.take_twin (asks_of_suits like greaterThan) hdone False.elim _ hfalse hc⟩
  case second => exact armTwin_of_length hab "b" true
  case first => exact armTwin_of_length hab "a" false
  case more =>
    exact armTwin_of_operands hab linear_counting (fun c => operands_of_tuple hsettled)
      fun c c' x y h hc => ⟨.done rfl, h.loop_twin hc htally⟩

/-- The library is reduced in lockstep on terms that are alike. Where rules may have to shrink what
they feed back, terms that are alike have one size, or a failure to shrink is set aside. -/
def lockstep (like : Likeness decls) (aside : Failure → Prop)
    (aside_leaving : ∀ {failure : Failure} (rule : String), aside failure → aside (failure.leaving rule))
    (feedback : ∀ {rule : Rule} {x y next next' : Term}, like.mayShrink → like.alike x y →
      like.alike next next' → rule.admitFeedback x next = rule.admitFeedback y next' ∨
        aside ⟨.notShrinking rule.name, []⟩) : Lockstep decls where
  admits := Admits like
  results := like.alike
  aside := aside
  aside_leaving := aside_leaving
  step := by
    rintro rule x y ⟨halike, hsuits | ⟨rfl, hsettled⟩⟩
    · exact Likeness.step_twin (fun _ _ _ hrule h => ⟨h, .inl hrule⟩) hsuits halike
    · exact greaterThan_twin halike hsettled
  feedback := by
    intro rule x y next next' h hnext
    by_cases hshrinks : rule.recursion = .shrinking
    · obtain ⟨halike, hsuits | ⟨rfl, -⟩⟩ := h
      · exact feedback (hsuits.own.shrinks hshrinks) halike hnext.alike
      · cases hshrinks
    · left
      simp only [Rule.admitFeedback, hshrinks, decide_false, Bool.false_and, Bool.false_eq_true,
        if_false]

end Library

end Reshape
