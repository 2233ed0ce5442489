import Reshape.Proofs.Pattern.Cut
import Reshape.Proofs.Pattern.Gathering

/-!
# Ends of sequences and texts

What patterns for the ends of sequences and texts take apart: a first element and what follows, a last
one and what precedes it, the first character of a text, a literal where a text starts or ends, or what
stands around one. The part at the end is matched before the rest is.
-/

namespace Reshape.Pattern

variable (decls : Declarations) (captures : Captures)

/-! ## Sequences -/

theorem extend?_head (first rest : Pattern) (item : Term) (items : List Term) :
    (head first rest).extend? decls (.seq (item :: items)) captures =
      (first.extend? decls item captures).bind (rest.extend? decls (.seq items)) := by
  have htakes : TakesLength [first] (some rest) [] (item :: items).length := ⟨by simp, nofun⟩
  rw [head, extend?_seq rfl htakes, extendEnds?]
  simp [extendEach?, extendRest?, between]

theorem extend?_head_nil (first rest : Pattern) :
    (head first rest).extend? decls (.seq []) captures = none := rfl

theorem extend?_tail (init last : Pattern) (items : List Term) (item : Term) :
    (tail init last).extend? decls (.seq (items ++ [item])) captures =
      (last.extend? decls item captures).bind (init.extend? decls (.seq items)) := by
  have htakes : TakesLength [] (some init) [last] (items ++ [item]).length := ⟨by simp, nofun⟩
  rw [tail, extend?_seq rfl htakes, extendEnds?]
  simp [extendEach?, extendRest?, between]

theorem extend?_pair (first second : Pattern) (x y : Term) :
    (tuple [first, second]).extend? decls (.seq [x, y]) captures =
      (first.extend? decls x captures).bind (second.extend? decls y) := by
  have htakes : TakesLength [first, second] none [] [x, y].length := ⟨by simp, by simp⟩
  rw [tuple, extend?_seq rfl htakes, extendEnds?]
  simp [extendEach?, extendRest?]

/-! ## Texts -/

theorem extend?_firstChar (first rest : Pattern) (c : Char) (chars : List Char) :
    (firstChar first rest).extend? decls (.text (.ofList (c :: chars))) captures =
      (first.extend? decls (.ofChar c) captures).bind (rest.extend? decls (.text (.ofList chars))) := by
  have htakes : TakesLength [first] (some rest) [] (String.ofList (c :: chars)).length :=
    ⟨by simp, nofun⟩
  rw [firstChar, extend?_chars rfl htakes, extendEnds?]
  simp [extendEach?, extendRest?, between]

/-- One of the literals at the start is found, and the rest is bound. -/
theorem captures?_startingWith (literals : List String) (name text : String) :
    (Pattern.text [.literal literals, .run (some name)]).captures? decls (.text text) =
      (literals.findSome? (Text.afterStart? · text)).map fun rest =>
        ⟨Table.set ∅ name (.text rest)⟩ := by
  have hcut : Segment.cut? [.literal literals, .run (some name)] text =
      (literals.findSome? (Text.afterStart? · text)).map fun rest => [(name, rest)] := by
    rw [Segment.cut?, List.map_findSome?]
    refine congrArg (List.findSome? · literals) (funext fun literal => ?_)
    cases hrest : Text.afterStart? literal text with
    | none => simp [hrest]
    | some rest => simp [hrest, Segment.cut?, Segment.record]
  rw [captures?_text, hcut]
  cases literals.findSome? (Text.afterStart? · text) <;> rfl

/-- One of the literals at the end is found, and the rest is bound. -/
theorem captures?_endingWith (literals : List String) (name text : String) :
    (Pattern.text [.run (some name), .literal literals]).captures? decls (.text text) =
      (literals.findSome? (Text.beforeEnd? · text)).map fun rest =>
        ⟨Table.set ∅ name (.text rest)⟩ := by
  have hcut : Segment.cut? [.run (some name), .literal literals] text =
      (literals.findSome? (Text.beforeEnd? · text)).map fun rest => [(name, rest)] := by
    rw [Segment.cut?, List.map_findSome?]
    refine congrArg (List.findSome? · literals) (funext fun literal => ?_)
    cases hrest : Text.beforeEnd? literal text with
    | none => simp [Segment.stopAt?, hrest]
    | some rest => simp [Segment.stopAt?, hrest, Segment.cut?, Segment.record]
  rw [captures?_text, hcut]
  cases literals.findSome? (Text.beforeEnd? · text) <;> rfl

/-- A literal is found at its leftmost occurrence, and what stands around it is bound. -/
theorem captures?_around {first last : String} (hnames : first ≠ last) (literal text : String) :
    (Pattern.text [.run (some first), .literal [literal], .run (some last)]).captures? decls
        (.text text) =
      (Text.aroundFirst? literal text).map fun (before, after) =>
        ⟨(Table.set ∅ first (.text before)).set last (.text after)⟩ := by
  have hcut : Segment.cut? [.run (some first), .literal [literal], .run (some last)] text =
      (Text.aroundFirst? literal text).map fun (before, after) => [(first, before), (last, after)] := by
    rw [Segment.cut?, List.findSome?_singleton, Segment.stopAt?]
    dsimp only [List.isEmpty_cons]
    cases Text.aroundFirst? literal text <;> rfl
  rw [captures?_text, hcut]
  cases Text.aroundFirst? literal text with
  | none => rfl
  | some parts =>
    obtain ⟨before, after⟩ := parts
    let bound : Captures := ⟨Table.set ∅ first (.text before)⟩
    have hfirst : (∅ : Captures).bind? first (.text before) = some bound := rfl
    have hlast : bound.bind? last (.text after) = some ⟨bound.bindings.set last (.text after)⟩ := by
      have hfree : bound.get? last = none := (Captures.get?_set ∅ first _ last).trans (if_neg hnames)
      rw [Captures.bind?, hfree]
    simp [Captures.bindAll, hfirst, hlast, bound]

end Reshape.Pattern
