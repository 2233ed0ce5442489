import Reshape.Library.Catalog
import Reshape.Reduction.Session

/-!
# Engines

An engine applies rules of the library, and other rules, under fixed
declarations and limits. Every call is a session of its own; only the memo, if
the engine has one, lasts from call to call.
-/

namespace Reshape

/-- Declarations, limits and perhaps a memo, for any number of calls. -/
structure Engine where
  decls : Declarations := ∅
  mode : Mode := .host
  memo : Option Memo := none
  deriving Inhabited

namespace Engine

/-- The engine with other declarations. Its memo stays. -/
def redeclare (engine : Engine) (decls : Declarations) : Engine := { engine with decls }

/-- The engine with a new memo. -/
def startMemo (engine : Engine) : Engine := { engine with memo := some ∅ }

/-- Builds a rule of the library. Its arguments become parts of the rule, so
they must not contain themselves. -/
def rule (engine : Engine) (entry : LibraryRule) (args : List Term) : Except Failure Rule := do
  args.forM engine.decls.needAcyclic
  entry.build args

/-- Reduces a term with any rule. -/
def reduce (rule : Rule) (input : Term) : Eval Engine Term := fun engine =>
  match rule.reduce engine.decls input (.ofMode engine.mode engine.memo) with
  | .ok result session => .ok result { engine with memo := session.memo }
  | .error halt session => .error halt { engine with memo := session.memo }

/-- Builds a rule of the library and reduces a term with it. -/
def apply (entry : LibraryRule) (args : List Term) (input : Term) : Eval Engine Term := do
  let rule ← Eval.lift ((← get).rule entry args)
  reduce rule input

/-- Applies a rule of the library by its name. -/
def applyByName (name : String) (args : List Term) (input : Term) : Eval Engine Term := do
  match LibraryRule.ofName? name with
  | some entry => apply entry args input
  | none => Eval.fail (.unknownRule name)

end Engine

end Reshape
