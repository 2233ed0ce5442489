import Reshape.Declarations.Basic

/-!
# Declarations that contain themselves

Replacing references by the shapes they name goes on forever exactly when a
declared name reaches itself. The search is depth first along the references
in a term, from left to right. It keeps the names being opened (`path`) and the
names known to reach no cycle (`done`), and stops at the first name that it
meets again while opening it.
-/

namespace Reshape

/-- A declared name that reaches itself. -/
structure Cycle where
  name : String
  deriving DecidableEq, Repr

namespace Declarations

/-- Opens the declared names in a list one after another, and the references in
their shapes, and gives the names known to reach no cycle. Each level of
`levels` opens one name of the table more, and a path holds no name twice, so a
search that starts with more levels than declared names never uses them up. -/
def search (decls : Declarations) :
    (levels : Nat) → (path done names : List String) → Except Cycle (List String)
  | 0, _, done, _ => .ok done
  | levels + 1, path, done, names =>
    names.foldlM
      (fun done name =>
        match decls.get? name with
        | none => .ok done
        | some shape =>
          if done.contains name then .ok done
          else if path.contains name then .error ⟨name⟩
          else do
            let done ← decls.search levels (name :: path) done shape.refs
            return name :: done)
      done

/-- The first cycle that a list of names leads to. -/
def cycleAmong? (decls : Declarations) (names : List String) : Option Cycle :=
  match decls.search (decls.size + 1) [] [] names with
  | .ok _ => none
  | .error cycle => some cycle

/-- The first cycle that the references in a term lead to. A term without one
can have its references replaced by their shapes for good. -/
def cycleIn? (decls : Declarations) (term : Term) : Option Cycle :=
  decls.cycleAmong? term.refs

/-- The first cycle of the table; names are opened in code point order. -/
def cycle? (decls : Declarations) : Option Cycle :=
  decls.cycleAmong? (decls.shapes.keys.mergeSort (· ≤ ·))

end Declarations

end Reshape
