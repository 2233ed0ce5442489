import Reshape.Proofs.Declarations.Acyclic
import Reshape.Proofs.Pattern.Equality
import Reshape.Proofs.Reduction.Descent
import Reshape.Proofs.Reduction.Mirror
import Reshape.Proofs.Template.Likeness

/-!
# Reductions of equal terms

Rules that do not map fields are reduced on equal terms in lockstep. Where fields are mapped,
the order in which they are looked at may decide which failure comes first, but not whether
there is a result. So reductions of equal terms agree: both have results, which are equal, or
both fail (`Rule.agrees_of_lockstep`, `Rule.agrees_of_nests`).
-/

namespace Reshape

section

variable {decls : Declarations} {rule : Rule} {a b : Term} {s : Session}

/-- From the session, the reductions of the two terms agree: what has a result of the one has an
equal result of the other, and what fails fails. -/
structure Rule.Agrees (decls : Declarations) (rule : Rule) (s : Session) (a b : Term) : Prop where
  ok : ∀ result s', rule.Ends decls a s (.ok result) s' →
    ∃ result' s'', rule.Ends decls b s (.ok result') s'' ∧ result.Same result'
  error : ∀ failure s', rule.Ends decls a s (.error failure) s' →
    ∃ failure' s'', rule.Ends decls b s (.error failure') s''

/-- Where the declarations have no cycle, only the rule is vetted. -/
theorem Rule.vet_of_cycle?_eq_none (h : decls.cycle? = none) (term : Term) :
    rule.vet decls term = rule.validate :=
  vet_of_acyclic (Declarations.needAcyclic_eq_ok_iff.2 (Declarations.cycleIn?_of_cycle? h term))

/-- Equal terms are rejected alike, though perhaps for another cycle. -/
theorem Rule.vet_eq_ok_of_same (h : a.Same b) (hvet : rule.vet decls a = .ok ()) :
    rule.vet decls b = .ok () := by
  cases hacyclic : decls.needAcyclic a with
  | error failure => cases hvet.symm.trans (vet_of_cyclic hacyclic)
  | ok _ =>
    rw [vet_of_acyclic hacyclic] at hvet
    rw [Declarations.needAcyclic_eq_ok_iff, Declarations.cycleIn?_eq_none_iff] at hacyclic
    rw [vet_of_acyclic, hvet]
    rw [Declarations.needAcyclic_eq_ok_iff, Declarations.cycleIn?_eq_none_iff]
    exact fun name hname => hacyclic name ((h.mem_refs_iff name).2 hname)

/-- What is rejected fails. -/
theorem Rule.Agrees.of_vet (h : a.Same b) (hidle : s.Idle)
    (haccepted : rule.vet decls a = .ok () → rule.Agrees decls s a b) : rule.Agrees decls s a b := by
  cases hvet : rule.vet decls a with
  | ok _ => exact haccepted hvet
  | error failure =>
    have hends := ends_of_vet hidle hvet
    refine ⟨fun result s' h => ?_, fun _ _ _ => ?_⟩
    · cases (h.unique hends).1
    · cases hvet' : rule.vet decls b with
      | error failure' => exact ⟨failure', s, ends_of_vet hidle hvet'⟩
      | ok _ => cases hvet.symm.trans (vet_eq_ok_of_same h.symm hvet')

/-- Reductions of equal terms that go in lockstep agree. -/
theorem Rule.agrees_of_lockstep (lock : Lockstep decls) (haside : ∀ failure, ¬ lock.aside failure)
    (hresults : ∀ x y, lock.results x y → x.Same y) (hadmits : lock.admits rule a b) (h : a.Same b)
    (hidle : s.Idle) (hmemo : s.memo = none) : rule.Agrees decls s a b := by
  refine .of_vet h hidle fun hvet => ?_
  have hsame : rule.vet decls a = rule.vet decls b := hvet.trans (vet_eq_ok_of_same h hvet).symm
  refine ⟨fun result s' hends => ?_, fun failure s' hends => ?_⟩
  · rcases hends.twin lock hidle hmemo hadmits hsame with ⟨_, heq, -⟩ | ⟨o', s'', hends', htwin⟩
    · cases heq
    · cases htwin with
      | ok hresult => exact ⟨_, s'', hends', hresults _ _ hresult⟩
      | aside hfailure => exact absurd hfailure (haside _)
  · rcases hends.twin lock hidle hmemo hadmits hsame with ⟨_, -, hfailure⟩ | ⟨o', s'', hends', htwin⟩
    · exact absurd hfailure (haside _)
    · cases htwin with
      | error => exact ⟨failure, s'', hends'⟩
      | aside hfailure => exact absurd hfailure (haside _)

/-- A result of a plain rule on one of two equal terms is had on the other. -/
theorem Rule.Ends.same {result : Term} {s' : Session} (hends : rule.Ends decls a s (.ok result) s')
    (hrule : rule.Plain) (hdecls : decls.WellKeyed) (h : a.Same b) (hidle : s.Idle)
    (hmemo : s.memo = none) :
    ∃ result' s'', rule.Ends decls b s (.ok result') s'' ∧ result.Same result' := by
  have hcorrect : s.Correct decls := by
    rw [Session.Correct, hmemo]
    rintro _ ⟨⟩
  obtain ⟨hvet, hresult, cost, hyields, hfits⟩ := hends.yields hidle hdecls hrule h.left hcorrect
  rw [h.normal] at hyields
  rcases hyields.ends (vet_eq_ok_of_same h hvet) hidle hdecls hrule h.right hcorrect with
    ⟨result', s'', hends', hresult', heq⟩ | ⟨hfull, -⟩
  · exact ⟨result', s'', hends', hresult, hresult', heq⟩
  · exact absurd (hfits hmemo) hfull

/-- Reductions of equal terms with a plain rule that only nests agree: both come to an end. -/
theorem Rule.agrees_of_nests (hnests : rule.Nests decls) (hrule : rule.Plain)
    (hdecls : decls.WellKeyed) (h : a.Same b) (hidle : s.Idle) (hmemo : s.memo = none) :
    rule.Agrees decls s a b := by
  refine ⟨fun result s' hends => hends.same hrule hdecls h hidle hmemo, fun failure s' hends => ?_⟩
  obtain ⟨o, s'', hends'⟩ := Rule.exists_ends_of_nests hnests b s
  cases o with
  | error failure' => exact ⟨failure', s'', hends'⟩
  | ok result =>
    obtain ⟨_, _, hok, -⟩ := hends'.same hrule hdecls h.symm hidle hmemo
    cases (hends.unique hok).1

end

end Reshape
