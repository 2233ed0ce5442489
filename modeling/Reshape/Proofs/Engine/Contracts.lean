import Reshape.Proofs.Engine.Acyclic
import Reshape.Proofs.Library.Contracts
import Reshape.Proofs.Reduction.Contracts

/-!
# Library rules are not at fault

Apart from those about numbers, the rules of the library are right for terms of all kinds: on any
input that leads to no cycle, an engine fails with them only because recursion reaches a limit or
does not shrink its input (`Engine.library_blames_recursion`). No template in them meets a term of
the wrong kind or a name that is not bound.

This holds of an engine with any history. Whatever rules it was called with, and under whatever
declarations, it remembers only what contracts say (`Engine.Operates.honours`).
-/

namespace Reshape

/-- The results that the engine remembers are as the contracts of their rules say. -/
def Engine.Honours (contracts : Contracts) (engine : Engine) : Prop :=
  ∀ memo ∈ engine.memo, memo.Honours contracts

namespace Engine

variable {contracts : Contracts} {engine engine' : Engine} {o : Outcome Term} {call : Call}

/-- Calls leave in the memo what contracts say. -/
theorem Answers.honours (h : engine.Answers call o engine') (hmemo : engine.Honours contracts) :
    engine'.Honours contracts := by
  cases h with
  | reduce h | apply _ h =>
    obtain ⟨session, hends, rfl⟩ := h
    exact (hends.obeys rfl hmemo).1
  | unbuilt _ => exact hmemo

/-- Whatever is done with an engine, it remembers only what contracts say. -/
theorem Operates.honours {operations : List Operation} (h : engine.Operates operations engine')
    (hmemo : engine.Honours contracts) : engine'.Honours contracts := by
  induction h with
  | nil engine => exact hmemo
  | startMemo _ ih =>
    refine ih ?_
    rintro _ ⟨⟩
    exact Memo.honours_empty contracts
  | redeclare _ ih => exact ih hmemo
  | run hanswers _ ih => exact ih (hanswers.honours hmemo)

/-- Rules of the library are not at fault for failures. Take an engine with any declarations and
limits, on which any operations were done since it was without a memo. If it builds a rule of the
library that is not about numbers, and fails with it on a term that leads to no cycle, a limit was
reached, or a term was fed back that is not smaller. -/
theorem library_blames_recursion (engine : Engine) (hmemo : engine.memo = none)
    (operations : List Operation) (present : Engine) (hoperates : engine.Operates operations present)
    (entry : LibraryRule) (hentry : entry.isUnary = false) (args : List Term) (rule : Rule)
    (hrule : present.rule entry args = .ok rule) (input : Term)
    (hinput : present.decls.Accepts input) (failure : Failure) (later : Engine)
    (hanswers : present.Answers (.apply entry args input) (.error failure) later) :
    (∃ limit max, failure.cause = .limitReached limit max) ∨
      ∃ name, failure.cause = .notShrinking name := by
  have hempty : engine.Honours Library.contracts := by
    rw [Engine.Honours, hmemo]
    nofun
  have hpresent := hoperates.honours hempty
  cases hanswers with
  | unbuilt hunbuilt => cases hrule.symm.trans hunbuilt
  | apply hbuilt h =>
    cases hrule.symm.trans hbuilt
    obtain ⟨session, hends, -⟩ := h
    obtain ⟨-, hbuild⟩ := bind_eq_ok hrule
    obtain ⟨hhonours, htakes⟩ := LibraryRule.honours_of_build hbuild hentry
    have hvet : rule.vet present.decls input = .ok () :=
      (Rule.vet_of_acyclic hinput).trans (LibraryRule.build_eq_ok hbuild).2
    obtain ⟨-, -, hblames⟩ := hends.obeys rfl hpresent
    exact Cause.blamesRecursion_cases (hblames hvet hhonours htakes failure rfl)

/-- To reverse what `A` stands for, the empty sequence is fed back, which is no smaller than `A`
itself. The sequence of one number that `A` stands for is reversed. -/
theorem reverse_blames_recursion :
    (∃ later, Answers { decls := named 1 } (.apply .reverse [] (.ref "A"))
      (.error ⟨.notShrinking "reverse", ["reverse"]⟩) later) ∧
    (∃ later, Answers { decls := named 1 } (.apply .reverse [] (.seq [.int 1]))
      (.ok (.seq [.int 1])) later) ∧
    ((∃ limit max, Cause.notShrinking "reverse" = .limitReached limit max) ∨
      ∃ name, Cause.notShrinking "reverse" = .notShrinking name) := by
  have hfails : Answers { decls := named 1 } (.apply .reverse [] (.ref "A"))
      (.error ⟨.notShrinking "reverse", ["reverse"]⟩) { decls := named 1 } :=
    .apply rfl ⟨_, ⟨1, rfl⟩, rfl⟩
  have hinput : (named 1).needAcyclic (.ref "A") = .ok () := by decide +kernel
  refine ⟨⟨_, hfails⟩, ⟨_, .apply rfl ⟨_, ⟨2, rfl⟩, rfl⟩⟩, ?_⟩
  exact library_blames_recursion { decls := named 1 } rfl [] _ (.nil _) .reverse rfl [] _ rfl
    (.ref "A") hinput _ _ hfails

end Engine

end Reshape
