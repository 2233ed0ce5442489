import Reshape.Proofs.Pattern.Resemblance

/-!
# Matching terms that are alike

Two terms can be alike without being equal: their fields stand in another order, or one of
them has a reference where the other has the shape that it names. What counts is that they
resolve to shapes whose parts are alike again (`Likeness`). A pattern that looks at
nothing but shapes and binds no name twice takes such terms apart in the same way
(`Likeness.captures?_alike`): it matches both or neither, and what it binds is alike.
-/

namespace Reshape

/-- A way for terms to be alike: terms that are alike resolve to one shape, and terms that are put
together from parts that are alike are alike. Comparing with a term that is `settled` does
not tell terms that are alike from one another. Where `mayShrink` holds, rules that have to
shrink what they feed back may be run on terms that are alike, which may differ in size. -/
structure Likeness (decls : Declarations) where
  alike : Term → Term → Prop
  inOrder : Prop
  settled : Term → Prop
  mayShrink : Prop
  resolve : ∀ {a b : Term}, alike a b →
    Term.AlikeShape alike inOrder (decls.resolve a) (decls.resolve b)
  join : ∀ {a b : Term}, Term.AlikeShape alike True a b → a.kind ≠ .composite → alike a b
  joinFields : inOrder → ∀ {xs ys : Composite}, xs.Distinct →
    List.Forall₂ (Entry.Alike alike) xs ys → alike (.composite xs) (.composite ys)
  settled_atom : ∀ value, settled (.atom value)
  fits : ∀ {a a' b b' : Term}, settled a ∨ settled b → alike a a' → alike b b' →
    decls.assignable a b = decls.assignable a' b'

namespace Pattern

mutual

/-- Whether the pattern looks at nothing but shapes: it has no terms in it, and no
alternatives. -/
def isShape : Pattern → Bool
  | .any | .bind _ | .kind _ | .text _ => true
  | .named _ inner => isShape inner
  | .literal _ | .fits _ | .alt _ => false
  | .seq front rest back | .chars front rest back =>
    isShapeAll front && isShapeOption rest && isShapeAll back
  | .composite fields => isShapeFields fields
  | .apply _ args => isShapeAll args
  | .function _ receiver params result => isShapeOption receiver && isShape params && isShape result
termination_by structural pattern => pattern

def isShapeAll : List Pattern → Bool
  | [] => true
  | pattern :: rest => isShape pattern && isShapeAll rest
termination_by structural patterns => patterns

def isShapeOption : Option Pattern → Bool
  | none => true
  | some pattern => isShape pattern
termination_by structural pattern => pattern

def isShapeFields : List (FieldPattern Pattern) → Bool
  | [] => true
  | ⟨_, _, value⟩ :: rest => isShape value && isShapeFields rest
termination_by structural fields => fields

end

/-- The pattern looks at nothing but shapes, and binds no name twice. -/
structure Linear (pattern : Pattern) : Prop where
  isShape : pattern.isShape = true
  nodup : pattern.binders.Nodup

mutual

/-- A pattern that looks at nothing but shapes has no terms in it, and a match of it binds all of
its names. -/
theorem names_of_isShape (pattern : Pattern) (h : pattern.isShape = true) :
    pattern.literalFree = true ∧ pattern.terms = [] ∧ pattern.names = pattern.binders := by
  match pattern with
  | .any | .bind _ | .kind _ => exact ⟨rfl, rfl, rfl⟩
  | .text segments => exact ⟨rfl, rfl, rfl⟩
  | .named name inner =>
    obtain ⟨hliteral, hterms, hnames⟩ := names_of_isShape inner h
    exact ⟨hliteral, hterms, congrArg (name :: ·) hnames⟩
  | .literal _ | .fits _ | .alt _ => cases h
  | .seq front rest back | .chars front rest back =>
    simp only [isShape, Bool.and_eq_true] at h
    simp [literalFree, terms, names, binders, namesAll_of_isShape front h.1.1,
      namesOption_of_isShape rest h.1.2, namesAll_of_isShape back h.2]
  | .composite fields => exact namesFields_of_isShape fields h
  | .apply head args => exact namesAll_of_isShape args h
  | .function k receiver params result =>
    simp only [isShape, Bool.and_eq_true] at h
    simp [literalFree, terms, names, binders, namesOption_of_isShape receiver h.1.1,
      names_of_isShape params h.1.2, names_of_isShape result h.2]
termination_by structural pattern

theorem namesAll_of_isShape (patterns : List Pattern) (h : isShapeAll patterns = true) :
    literalFreeAll patterns = true ∧ termsAll patterns = [] ∧
      namesAll patterns = bindersAll patterns := by
  match patterns with
  | [] => exact ⟨rfl, rfl, rfl⟩
  | pattern :: patterns =>
    rw [isShapeAll, Bool.and_eq_true] at h
    simp [literalFreeAll, termsAll, namesAll, bindersAll, names_of_isShape pattern h.1,
      namesAll_of_isShape patterns h.2]
termination_by structural patterns

theorem namesOption_of_isShape (pattern : Option Pattern) (h : isShapeOption pattern = true) :
    literalFreeOption pattern = true ∧ termsOption pattern = [] ∧
      namesOption pattern = bindersOption pattern := by
  match pattern with
  | none => exact ⟨rfl, rfl, rfl⟩
  | some pattern => exact names_of_isShape pattern h
termination_by structural pattern

theorem namesFields_of_isShape (fields : List (FieldPattern Pattern))
    (h : isShapeFields fields = true) :
    literalFreeFields fields = true ∧ termsFields fields = [] ∧
      namesFields fields = bindersFields fields := by
  match fields with
  | [] => exact ⟨rfl, rfl, rfl⟩
  | ⟨_, _, value⟩ :: fields =>
    rw [isShapeFields, Bool.and_eq_true] at h
    simp [literalFreeFields, termsFields, namesFields, bindersFields,
      names_of_isShape value h.1, namesFields_of_isShape fields h.2]
termination_by structural fields

end

end Pattern

namespace Likeness

variable {decls : Declarations} (like : Likeness decls)

/-- What a likeness says of matching: patterns that look at nothing but shapes compare no terms. -/
abbrev resemblance : Resemblance decls where
  alike := like.alike
  inOrder := like.inOrder
  targets _ := False
  resolve := like.resolve
  seq h := like.join (.seq h) nofun
  text s := like.join (.text s) nofun
  unknown := like.join (.atom _) nofun
  fits h := h.elim

/-- The same names are bound, to terms that are alike, and the names in `free` are not. -/
abbrev Captured (free : List String) (c c' : Captures) : Prop := like.resemblance.Captured free c c'

variable {like}

theorem alike_seq {xs ys : List Term} (h : List.Forall₂ like.alike xs ys) :
    like.alike (.seq xs) (.seq ys) := like.join (.seq h) nofun

theorem alike_text (s : String) : like.alike (.text s) (.text s) :=
  like.join (.text s) nofun

theorem alike_atom (value : Atom) : like.alike (.atom value) (.atom value) :=
  like.join (.atom value) nofun

/-- A linear pattern matches both of two terms that are alike or neither, and what it binds is
alike. -/
theorem captures?_alike {pattern : Pattern} (hpattern : pattern.Linear) {a b : Term}
    (hab : like.alike a b) :
    Option.Rel (like.Captured []) (pattern.captures? decls a) (pattern.captures? decls b) := by
  obtain ⟨hliteral, hterms, hnames⟩ := Pattern.names_of_isShape pattern hpattern.isShape
  refine Resemblance.captures?_alike hliteral ?_ ?_ hab
  · rw [hnames]
    exact hpattern.nodup
  · rw [hterms]
    nofun

end Likeness

end Reshape
