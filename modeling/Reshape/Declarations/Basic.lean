import Reshape.Table
import Reshape.Term.Equality

/-!
# Declared shapes

A table of declarations gives names to terms, and a reference stands for the
term declared under its name. `resolve` follows a chain of references to the
first term that is not a declared reference. A reference to an undeclared name
stands for itself.
-/

namespace Reshape

/-- Terms under names, for references to stand for. -/
structure Declarations where
  shapes : Table String Term := ∅
  deriving Inhabited

namespace Declarations

instance : EmptyCollection Declarations := ⟨{}⟩

def size (decls : Declarations) : Nat := decls.shapes.size

def get? (decls : Declarations) (name : String) : Option Term := decls.shapes.get? name

/-- Declares a name, in place of what was declared under it before. -/
def declare (decls : Declarations) (name : String) (shape : Term) : Declarations :=
  ⟨decls.shapes.set name shape⟩

theorem get?_declare (decls : Declarations) (name : String) (shape : Term) (other : String) :
    (decls.declare name shape).get? other =
      if name = other then some shape else decls.get? other := by
  simp [declare, get?, Table.get?_set]

/-- Declarations made in order; of equal names the last one counts. -/
def ofList (shapes : List (String × Term)) : Declarations :=
  ⟨Table.ofList shapes⟩

/-- Follows a chain of references for at most `hops` references. -/
def follow (decls : Declarations) : Nat → Term → Term
  | 0, term => term
  | hops + 1, .ref name =>
    match decls.get? name with
    | some shape => decls.follow hops shape
    | none => .ref name
  | _ + 1, term => term

/-- The term that a term stands for. A chain of distinct declared names has at
most `size` of them, so one more hop reaches its end; a chain that loops stops at
one of its references. -/
def resolve (decls : Declarations) (term : Term) : Term :=
  decls.follow (decls.size + 1) term

/-- Where nothing is declared, a term stands for itself. -/
theorem resolve_empty (term : Term) : (∅ : Declarations).resolve term = term := by
  cases term <;> rfl

end Declarations

end Reshape
