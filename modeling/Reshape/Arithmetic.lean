import Reshape.Engine

/-!
# Arithmetic

Arithmetic on natural numbers below 2⁶⁴, done by the library's rules on
sequences. Operands have to fit an integer atom. The sequences are as long as the
numbers, so this is for small numbers.
-/

namespace Reshape

namespace Arithmetic

/-- An operand as an integer atom. -/
def operand (n : UInt64) : Except Failure Term :=
  if n.toNat ≤ Int64.maxValue.toInt.toNat then .ok (.int n.toInt64)
  else .error ⟨.undefinedArithmetic (toString n.toNat ++ " is out of range"), []⟩

/-- A result as a natural number. -/
def natural : Term → Except Failure UInt64
  | .atom (.int value) =>
    if 0 ≤ value.toInt then .ok value.toUInt64
    else .error ⟨.wrongKind "natural number" .atom, []⟩
  | other => .error ⟨.wrongKind "natural number" other.kind, []⟩

/-- A result as a boolean. -/
def boolean : Term → Except Failure Bool
  | .atom (.bool value) => .ok value
  | other => .error ⟨.wrongKind "boolean" other.kind, []⟩

/-- Applies a rule without parameters to a pair of operands. -/
def applyPair (entry : LibraryRule) (a b : UInt64) : Eval Engine Term := do
  let a ← Eval.lift (operand a)
  let b ← Eval.lift (operand b)
  Engine.apply entry [] (.seq [a, b])

/-- A rule on two operands with a natural number as its result. -/
def binary (entry : LibraryRule) (a b : UInt64) : Eval Engine UInt64 := do
  Eval.lift (natural (← applyPair entry a b))

def add : UInt64 → UInt64 → Eval Engine UInt64 := binary .add

/-- The difference, undefined if the second operand is greater. -/
def subtract : UInt64 → UInt64 → Eval Engine UInt64 := binary .subtract

def multiply : UInt64 → UInt64 → Eval Engine UInt64 := binary .multiply

/-- The quotient, undefined if the second operand is zero or there is a
remainder. -/
def divide : UInt64 → UInt64 → Eval Engine UInt64 := binary .divide

def greaterThan (a b : UInt64) : Eval Engine Bool := do
  Eval.lift (boolean (← applyPair .greaterThan a b))

def fibonacci (n : UInt64) : Eval Engine UInt64 := do
  let n ← Eval.lift (operand n)
  Eval.lift (natural (← Engine.apply .fibonacci [] n))

end Arithmetic

end Reshape
