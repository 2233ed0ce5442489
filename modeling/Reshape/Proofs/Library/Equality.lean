import Reshape.Proofs.Engine.Operations
import Reshape.Proofs.Library.Likeness
import Reshape.Proofs.Library.Lockstep
import Reshape.Proofs.Library.UppercaseKeys

/-!
# The library on equal terms

Applied to terms that are equal up to the order of fields, a rule of the library has equal
results or fails on both (`Engine.apply_respects_equality`), so a result that is recalled for
an equal term is the one that would be computed. One entry is different: `uppercase_keys` keeps
the field that comes last where two keys become the same, so there the order of the fields
shows in the result (`Engine.merged_keys_show_order`).
-/

namespace Reshape

namespace LibraryRule

variable {decls : Declarations} {entry : LibraryRule} {args : List Term} {rule : Rule} {a b : Term}
  {s : Session}

/-- Whether the arm feeds its body back as a whole. -/
def feedsBodyBack (arm : Arm) : Bool :=
  match arm.body with
  | .reduce _ => true
  | _ => false

/-- Rules of the library that map fields only nest. -/
theorem nests_of_build (h : entry.build args = .ok rule) (hmaps : entry.mapsFields = true) :
    rule.Nests decls := by
  have hform : (rule.callees.isEmpty && rule.arms.all (!feedsBodyBack ·)) = true := by
    refine of_build
      (P := fun _ rule => (rule.callees.isEmpty && rule.arms.all (!feedsBodyBack ·)) = true) h ?_
    cases entry <;> cases hmaps <;> simp only [recipe, Recipe.always_ofTerm] <;> intros <;> rfl
  rw [Bool.and_eq_true, List.isEmpty_iff] at hform
  refine Rule.nests (build_eq_ok h).2 hform.1 fun arm harm inner hinner => ?_
  have hnot := List.all_eq_true.1 hform.2 arm harm
  rw [feedsBodyBack, hinner] at hnot
  cases hnot

/-- Reductions of equal terms with a rule of the library agree. Where fields may merge under keys
in upper case, those that do have to be equal. -/
theorem agrees_of_build (hbuild : entry.build args = .ok rule) (hdecls : decls.WellKeyed)
    (hargs : ∀ arg ∈ args, arg.WellKeyed) (h : a.Same b)
    (hkeys : entry = .uppercaseKeys → ∀ fields : Composite, decls.resolve a = .composite fields →
      fields.Mergeable CaseOp.upper.apply)
    (hidle : s.Idle) (hmemo : s.memo = none) : rule.Agrees decls s a b := by
  by_cases hupper : entry = .uppercaseKeys
  · subst hupper
    obtain rfl : rule = Library.uppercaseKeys :=
      of_build (P := fun _ rule => rule = Library.uppercaseKeys) hbuild rfl
    exact Rule.agrees_of_lockstep (Library.uppercaseKeysLockstep hdecls) (fun _ => id)
      (fun _ _ => id) ⟨rfl, h, hkeys rfl⟩ h hidle hmemo
  have hwell : rule.WellKeyed := wellKeyed_of_build hbuild hargs
  cases hmaps : entry.mapsFields with
  | true =>
    have hplain := Rule.plain_of_keyless (keyless_of_build hbuild hupper) hwell
    exact Rule.agrees_of_nests (nests_of_build hbuild hmaps) hplain hdecls h hidle hmemo
  | false =>
    have hsuits : (Likeness.ofEquality hdecls).Suits rule :=
      suits_of_build hbuild (fun guard _ => Likeness.settledGuard_of_forall (fun _ => trivial) guard)
        (fun term hterm => .refl (hwell term hterm)) (.inr hmaps) (.inl trivial)
    refine Rule.agrees_of_lockstep
      (Library.lockstep (Likeness.ofEquality hdecls) (fun _ => False) (fun _ => id)
        fun _ h hnext => .inl ?_)
      (fun _ => id) (fun _ _ => id) ⟨h, .inl hsuits⟩ h hidle hmemo
    rw [Rule.admitFeedback, Rule.admitFeedback, h.size_eq, hnext.size_eq]

end LibraryRule

namespace Engine

variable {engine : Engine} {entry : LibraryRule} {args : List Term} {input : Term}

/-- With a budget every call has an answer. -/
theorem exists_answers (hbudget : engine.mode.budget? ≠ none) (entry : LibraryRule)
    (args : List Term) (input : Term) :
    ∃ o engine', engine.Answers (.apply entry args input) o engine' := by
  cases hrule : engine.rule entry args with
  | error failure => exact ⟨.error failure, engine, .unbuilt hrule⟩
  | ok rule =>
    obtain ⟨budget, hsome⟩ := Option.ne_none_iff_exists'.1 hbudget
    have hmeter : (Session.ofMode engine.mode engine.memo).meter.budget = some budget := hsome
    obtain ⟨o, session, hreduce⟩ := rule.exists_reduce_eq_lift engine.decls input hmeter
    exact ⟨o, _, .apply hrule ⟨session, Rule.ends_of_reduce hreduce, rfl⟩⟩

/-- A rule of the library respects the equality of terms. Take an engine without a memo and two
terms that are equal up to the order of fields; if the rule is `uppercase_keys`, let fields whose
keys become the same be equal otherwise. Where the rule has a result on the one term, it has an
equal one on the other; where it fails on the one, it fails on the other; and with a budget it
does one or the other. -/
theorem apply_respects_equality (engine : Engine) (hmemo : engine.memo = none)
    (hdecls : engine.decls.WellKeyed) (entry : LibraryRule) (args : List Term)
    (hargs : ∀ arg ∈ args, arg.WellKeyed) (a b : Term) (ha : a.WellKeyed) (hb : b.WellKeyed)
    (hequal : (a == b) = true)
    (hkeys : entry = .uppercaseKeys → ∀ fields : Composite,
      engine.decls.resolve a = .composite fields → fields.Mergeable CaseOp.upper.apply) :
    (∀ result engine', engine.Answers (.apply entry args a) (.ok result) engine' →
      ∃ result' engine'', engine.Answers (.apply entry args b) (.ok result') engine'' ∧
        (result == result') = true) ∧
    (∀ failure engine', engine.Answers (.apply entry args a) (.error failure) engine' →
      ∃ failure' engine'', engine.Answers (.apply entry args b) (.error failure') engine'') ∧
    (engine.mode.budget? ≠ none → ∃ o engine', engine.Answers (.apply entry args a) o engine') := by
  have hsame : a.Same b := .of_beq ha hb hequal
  have hagrees : ∀ {rule}, engine.rule entry args = .ok rule →
      rule.Agrees engine.decls (.ofMode engine.mode engine.memo) a b := fun hrule =>
    LibraryRule.agrees_of_build (build_of_rule hrule) hdecls hargs hsame hkeys rfl hmemo
  refine ⟨fun result engine' h => ?_, fun failure engine' h => ?_, fun hbudget =>
    exists_answers hbudget entry args a⟩
  · cases h with
    | apply hrule h =>
      obtain ⟨session, hends, -⟩ := h
      obtain ⟨result', session', hends', hresult⟩ := (hagrees hrule).ok result session hends
      exact ⟨result', _, .apply hrule ⟨session', hends', rfl⟩, hresult.beq⟩
  · cases h with
    | unbuilt hrule => exact ⟨failure, engine, .unbuilt hrule⟩
    | apply hrule h =>
      obtain ⟨session, hends, -⟩ := h
      obtain ⟨failure', session', hends'⟩ := (hagrees hrule).error failure session hends
      exact ⟨failure', _, .apply hrule ⟨session', hends', rfl⟩⟩

/-- Two fields in the one order and in the other. -/
theorem uppercase_keys_of_swapped_fields :
    ∃ result engine', Answers {} (.apply .uppercaseKeys []
        (.composite [⟨"b", .int 2, {}⟩, ⟨"a", .int 1, {}⟩])) (.ok result) engine' ∧
      (Term.composite [⟨"A", .int 1, {}⟩, ⟨"B", .int 2, {}⟩] == result) = true := by
  have hwell : ∀ first second : Entry Term, first.key ≠ second.key → first.value.WellKeyed →
      second.value.WellKeyed → (Term.composite [first, second]).WellKeyed := by
    intro first second hkeys hfirst hsecond
    simp [Composite.Distinct, Composite.keys, hkeys, hfirst, hsecond]
  have hmerge : ∀ fields : Composite,
      Declarations.resolve ∅ (.composite [⟨"a", .int 1, {}⟩, ⟨"b", .int 2, {}⟩]) = .composite fields →
      fields.Mergeable CaseOp.upper.apply := by
    rintro _ ⟨⟩
    unfold Composite.Mergeable
    decide +kernel
  have hrespects := apply_respects_equality {} rfl Declarations.wellKeyed_empty .uppercaseKeys [] (List.forall_mem_nil _)
    (.composite [⟨"a", .int 1, {}⟩, ⟨"b", .int 2, {}⟩])
    (.composite [⟨"b", .int 2, {}⟩, ⟨"a", .int 1, {}⟩])
    (hwell _ _ (by decide) trivial trivial) (hwell _ _ (by decide) trivial trivial) (by decide +kernel)
    fun _ => hmerge
  exact hrespects.1 (.composite [⟨"A", .int 1, {}⟩, ⟨"B", .int 2, {}⟩]) _
    (.apply rfl ⟨_, ⟨1, rfl⟩, rfl⟩)

/-- Where keys merge, `uppercase_keys` tells equal terms apart by the order of their fields. -/
theorem merged_keys_show_order :
    (Term.composite [⟨"a", .int 1, {}⟩, ⟨"A", .int 2, {}⟩] ==
        .composite [⟨"A", .int 2, {}⟩, ⟨"a", .int 1, {}⟩]) = true ∧
      ∃ first second engine₁ engine₂,
        Answers {} (.apply .uppercaseKeys []
          (.composite [⟨"a", .int 1, {}⟩, ⟨"A", .int 2, {}⟩])) (.ok first) engine₁ ∧
        Answers {} (.apply .uppercaseKeys []
          (.composite [⟨"A", .int 2, {}⟩, ⟨"a", .int 1, {}⟩])) (.ok second) engine₂ ∧
        (first == second) = false := by
  refine ⟨by decide +kernel, .composite [⟨"A", .int 2, {}⟩], .composite [⟨"A", .int 1, {}⟩], _, _,
    .apply rfl ⟨_, ⟨1, rfl⟩, rfl⟩, .apply rfl ⟨_, ⟨1, rfl⟩, rfl⟩, by decide +kernel⟩

end Engine

end Reshape
