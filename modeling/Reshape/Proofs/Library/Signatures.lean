import Reshape.Library.Signatures
import Reshape.Proofs.Engine.Operations
import Reshape.Proofs.Pattern.Hereditary
import Reshape.Proofs.Reduction.Conclusion

/-!
# Parts of signatures

Each rule that takes a part out of a call signature, and the one that puts a part in, takes a single
step (`Library.parameters_yields` and the lemmas after it). Together they say what a further parameter
changes (`Library.appendArgument_keeps`): the parameters, which it is behind, and not the result. The
receiver is lost: the signature that is built has none, whether there was one or not
(`Library.appendArgument_loses_receiver`).
-/

namespace Reshape

namespace Library

variable (decls : Declarations) {rule : Rule} {input value : Term}

/-- A rule whose first arm is taken, and builds its value without a request, yields it in a single
step. -/
theorem yields_of_taken
    (h : rule.step decls input = .note .armTried (.note .armTaken (.done (.done value)))) :
    rule.Yields decls input value ⟨1, 0⟩ := by
  refine .of_done 0 ?_
  rw [h, Plan.yields_note, Plan.yields_note, Plan.yields_done]
  exact ⟨rfl, rfl⟩

variable (receiver : Option Term) (params : List Term) (result arg : Term)

theorem parameters_yields :
    parameters.Yields decls (.function .call receiver params result) (.seq params) ⟨1, 0⟩ :=
  yields_of_taken decls rfl

theorem returnType_yields :
    returnType.Yields decls (.function .call receiver params result) result ⟨1, 0⟩ :=
  yields_of_taken decls rfl

theorem thisParameter_yields :
    thisParameter.Yields decls (.function .call receiver params result) (receiver.getD .unknown)
      ⟨1, 0⟩ :=
  yields_of_taken decls rfl

theorem appendArgument_yields :
    (appendArgument arg).Yields decls (.function .call receiver params result)
      (.function .call none (params ++ [arg]) result) ⟨1, 0⟩ :=
  yields_of_taken decls rfl

variable {decls} {receiver params result arg}

/-- What is put together is acyclic if the signature and the argument are. -/
theorem accepts_appended (hf : decls.Accepts (.function .call receiver params result))
    (harg : decls.Accepts arg) : decls.Accepts (.function .call none (params ++ [arg]) result) := by
  have hP := decls.hereditary_accepts
  obtain ⟨-, hparams, hresult⟩ := hP.function.1 hf
  refine hP.function.2 ⟨by rintro _ ⟨⟩, ?_, hresult⟩
  exact List.forall_mem_append.2 ⟨hparams, List.forall_mem_singleton.2 harg⟩

/-- A further argument stands behind the parameters that there were, and the result stays. The receiver
does not: the signature that is built has none, and `unknown` is what is found in its place. That is
the receiver that was there only if there was none, or `unknown`. Each of the rules needs one frame and
one step. -/
theorem appendArgument_keeps (engine : Engine) (hmemo : engine.memo = none) (receiver : Option Term)
    (params : List Term) (result arg : Term)
    (hf : engine.decls.Accepts (.function .call receiver params result))
    (harg : engine.decls.Accepts arg) :
    let f := Term.function .call receiver params result
    let g := Term.function .call none (params ++ [arg]) result
    let answers entry args input output := engine.AnswersWithin (.apply entry args input) output ⟨1, 1⟩
    answers .appendArgument [arg] f g ∧
    (answers .parameters [] f (.seq params) ∧ answers .parameters [] g (.seq (params ++ [arg]))) ∧
    (answers .returnType [] f result ∧ answers .returnType [] g result) ∧
    (answers .thisParameter [] f (receiver.getD .unknown) ∧ answers .thisParameter [] g .unknown) := by
  intro f g answers
  have hg : engine.decls.Accepts g := accepts_appended hf harg
  have hanswers {entry : LibraryRule} {args : List Term} {rule : Rule} {input output : Term}
      (hrule : engine.rule entry args = .ok rule) (hvalid : rule.validate = .ok ())
      (hinput : engine.decls.Accepts input) (h : rule.Yields engine.decls input output ⟨1, 0⟩) :
      answers entry args input output :=
    Engine.answersWithin_of_endsWithin hmemo hrule
      (h.endsWithin ((Rule.vet_of_acyclic hinput).trans hvalid) engine.mode)
  have hrule : engine.rule .appendArgument [arg] = .ok (appendArgument arg) := by
    have hargs : engine.decls.needAcyclic arg = .ok () := harg
    show ((engine.decls.needAcyclic arg >>= fun _ => pure ()) >>= fun _ => _) = _
    rw [hargs]
    rfl
  exact ⟨hanswers hrule rfl hf (appendArgument_yields ..),
    ⟨hanswers rfl rfl hf (parameters_yields ..), hanswers rfl rfl hg (parameters_yields ..)⟩,
    ⟨hanswers rfl rfl hf (returnType_yields ..), hanswers rfl rfl hg (returnType_yields ..)⟩,
    hanswers rfl rfl hf (thisParameter_yields ..), hanswers rfl rfl hg (thisParameter_yields ..)⟩

/-- References stay as they are, and one frame and one step are enough for each of the rules. -/
theorem appendArgument_behind_reference :
    let engine : Engine :=
      { decls := (∅ : Declarations).declare "A" (.prim .number), mode := .custom 1 (some 1) }
    let f := Term.function .call (some (.ref "A")) [.ref "A"] .never
    let g := Term.function .call none [.ref "A", .text "x"] .never
    (∃ engine', engine.Answers (.apply .appendArgument [.text "x"] f) (.ok g) engine') ∧
      ∃ engine', engine.Answers (.apply .parameters [] g) (.ok (.seq [.ref "A", .text "x"])) engine' := by
  intro engine f g
  have haccepts {term : Term} (h : engine.decls.cycleIn? term = none) : engine.decls.Accepts term :=
    Declarations.needAcyclic_eq_ok_iff.2 h
  obtain ⟨⟨o, engine₁, happended, -, hiff⟩, ⟨-, o', engine₂, hparameters, -, hiff'⟩, -⟩ :=
    appendArgument_keeps engine rfl (some (.ref "A")) [.ref "A"] .never (.text "x")
      (haccepts (by decide +kernel)) (haccepts (by decide +kernel))
  rw [hiff.2 (by decide)] at happended
  rw [hiff'.2 (by decide)] at hparameters
  exact ⟨⟨engine₁, happended⟩, engine₂, hparameters⟩

/-- A signature with a receiver has another one after an argument was appended to it. -/
theorem appendArgument_loses_receiver :
    let f := Term.function .call (some (.atom (.token "Window"))) [] .never
    let g := Term.function .call none [.prim .number] .never
    let engine : Engine := {}
    engine.Answers (.apply .appendArgument [.prim .number] f) (.ok g) engine ∧
      engine.Answers (.apply .thisParameter [] f) (.ok (.atom (.token "Window"))) engine ∧
      engine.Answers (.apply .thisParameter [] g) (.ok .unknown) engine :=
  ⟨.apply rfl ⟨_, ⟨1, rfl⟩, rfl⟩, .apply rfl ⟨_, ⟨1, rfl⟩, rfl⟩, .apply rfl ⟨_, ⟨1, rfl⟩, rfl⟩⟩

end Library

end Reshape
