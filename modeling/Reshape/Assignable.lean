import Reshape.Declarations.Basic

/-!
# Assignability

Whether a term fits another one, as a type fits a type. `unknown` is the top and
`never` the bottom; literals fit their keyword; sequences and applications
compare position by position; a composite may have more fields than asked for
and lack optional ones; a signature may take fewer parameters, and parameters
and receivers compare the other way round. References are resolved on both
sides at every level.

Two terms that fit each other count as equal for guards.
-/

namespace Reshape

/-- Nesting beyond this level does not fit. -/
def maxFitDepth : Nat := 256

/-- Whether an atom fits a keyword. -/
def Atom.fits : Atom → Prim → Bool
  | .int _, .number => true
  | .bool _, .boolean => true
  | .prim .undefined, .void => true
  | .prim p, q => p == q
  | _, _ => false

namespace Declarations

/-- Whether two lists have one length and fit position by position. -/
def fitsEach (fits : Term → Term → Bool) (xs ys : List Term) : Bool :=
  xs.length == ys.length && (xs.zip ys).all fun (x, y) => fits x y

/-- Whether one composite offers what the fields of another ask for. -/
def fitsFields (fits : Term → Term → Bool) (sub sup : Composite) : Bool :=
  sup.all fun target =>
    match sub.get? target.key with
    | some field =>
      (target.modifiers.optional || !field.modifiers.optional) && fits field.value target.value
    | none => target.modifiers.optional

/-- Whether a receiver that is asked for accepts the one that is given. -/
def fitsReceiver (fits : Term → Term → Bool) : Option Term → Option Term → Bool
  | some expected, some given => fits given expected
  | _, _ => true

/-- Whether two resolved terms fit when their parts fit by `fits`. -/
def fitsShape (fits : Term → Term → Bool) : Term → Term → Bool
  | _, .atom (.prim .unknown) => true
  | .atom (.prim .never), _ => true
  | .atom a, .atom (.prim p) => a.fits p
  | .text _, .atom (.prim .string) => true
  | .seq xs, .seq ys => fitsEach fits xs ys
  | .composite xs, .composite ys => fitsFields fits xs ys
  | .apply f xs, .apply g ys => f == g && fitsEach fits xs ys
  | .function k r ps t, .function k' r' ps' t' =>
    k == k' && ps.length ≤ ps'.length && fitsReceiver fits r r' &&
      ((ps.zip ps').all fun (mine, theirs) => fits theirs mine) && fits t t'
  | _, _ => false

/-- Assignability through at most `levels` levels of nesting. -/
def fitsWithin (decls : Declarations) : Nat → Term → Term → Bool
  | 0, _, _ => false
  | levels + 1, sub, sup =>
    let sub := decls.resolve sub
    let sup := decls.resolve sup
    sub == sup || fitsShape (decls.fitsWithin levels) sub sup

/-- Whether `sub` fits `sup`. -/
def assignable (decls : Declarations) (sub sup : Term) : Bool :=
  decls.fitsWithin (maxFitDepth + 1) sub sup

/-- Whether two terms fit each other. -/
def equivalent (decls : Declarations) (a b : Term) : Bool :=
  decls.assignable a b && decls.assignable b a

end Declarations

end Reshape
