import Mathlib.Data.List.Forall2
import Reshape.Proofs.Pattern.Binding
import Reshape.Proofs.Pattern.Normal
import Reshape.Proofs.Term.Fields

/-!
# Matching terms that resemble each other

What a match finds out about a term is the shape that it resolves to, whether it can be assigned to
the terms in the pattern, and the same about its parts. A `Resemblance` relates terms that agree in
all of this. A pattern without literals in which no name stands twice takes such terms apart in the
same way (`Resemblance.captures?_alike`): it matches both or neither, by the same alternatives, and
what it binds is alike.

Names have to be distinct because a name that is bound again is compared with what it is bound to,
as it is written.
-/

namespace Reshape

/-- The terms have one shape, and their parts are alike. Where `inOrder` holds, the fields of
composites stand in the same order. -/
inductive Term.AlikeShape (alike : Term → Term → Prop) (inOrder : Prop) : Term → Term → Prop where
  | seq {xs ys : List Term} :
      List.Forall₂ alike xs ys → AlikeShape alike inOrder (.seq xs) (.seq ys)
  | text (s : String) : AlikeShape alike inOrder (.text s) (.text s)
  | composite {xs ys : Composite} :
      (∀ key, Option.Rel (Entry.Alike alike) (xs.get? key) (ys.get? key)) →
      (inOrder → List.Forall₂ (Entry.Alike alike) xs ys) →
      AlikeShape alike inOrder (.composite xs) (.composite ys)
  | atom (value : Atom) : AlikeShape alike inOrder (.atom value) (.atom value)
  | apply (head : String) {xs ys : List Term} :
      List.Forall₂ alike xs ys → AlikeShape alike inOrder (.apply head xs) (.apply head ys)
  | function (kind : SignatureKind) {r r' : Option Term} {ps ps' : List Term} {t t' : Term} :
      Option.Rel alike r r' → List.Forall₂ alike ps ps' → alike t t' →
      AlikeShape alike inOrder (.function kind r ps t) (.function kind r' ps' t')
  | ref (name : String) : AlikeShape alike inOrder (.ref name) (.ref name)

/-- Fields that are alike in order are alike under each key. -/
theorem Term.AlikeShape.fields {alike : Term → Term → Prop} {inOrder : Prop} {xs ys : Composite}
    (h : List.Forall₂ (Entry.Alike alike) xs ys) :
    AlikeShape alike inOrder (.composite xs) (.composite ys) := by
  refine .composite (fun key => ?_) fun _ => h
  induction h with
  | nil => exact .none
  | @cons x y xs ys hxy _ ih =>
    rw [Composite.get?, Composite.get?, List.find?_cons, List.find?_cons, hxy.key]
    cases y.key == key with
    | true => exact .some hxy
    | false => exact ih

/-- A way for terms to be alike as far as matching goes: terms that are alike resolve to one shape,
the terms that a match puts together are alike if their parts are, and to a term in `targets`
both of two terms that are alike can be assigned or neither. -/
structure Resemblance (decls : Declarations) where
  alike : Term → Term → Prop
  inOrder : Prop
  targets : Term → Prop
  resolve : ∀ {a b : Term}, alike a b →
    Term.AlikeShape alike inOrder (decls.resolve a) (decls.resolve b)
  seq : ∀ {xs ys : List Term}, List.Forall₂ alike xs ys → alike (.seq xs) (.seq ys)
  text : ∀ s, alike (.text s) (.text s)
  unknown : alike .unknown .unknown
  fits : ∀ {a b target : Term}, targets target → alike a b →
    decls.assignable a target = decls.assignable b target

namespace Pattern

mutual

/-- The names that a match may bind, as often as they stand in the pattern. -/
def names : Pattern → List String
  | .any | .literal _ | .kind _ | .fits _ => []
  | .bind name => [name]
  | .named name inner => name :: names inner
  | .alt alternatives => namesAll alternatives
  | .seq front rest back | .chars front rest back =>
    namesAll front ++ namesOption rest ++ namesAll back
  | .text segments => segments.filterMap Segment.name?
  | .composite fields => namesFields fields
  | .apply _ args => namesAll args
  | .function _ receiver params result => namesOption receiver ++ names params ++ names result
termination_by structural pattern => pattern

def namesAll : List Pattern → List String
  | [] => []
  | pattern :: rest => names pattern ++ namesAll rest
termination_by structural patterns => patterns

def namesOption : Option Pattern → List String
  | none => []
  | some pattern => names pattern
termination_by structural pattern => pattern

def namesFields : List (FieldPattern Pattern) → List String
  | [] => []
  | ⟨_, _, value⟩ :: rest => names value ++ namesFields rest
termination_by structural fields => fields

end

mutual

/-- Whether no literal stands in the pattern. -/
def literalFree : Pattern → Bool
  | .any | .bind _ | .kind _ | .fits _ | .text _ => true
  | .literal _ => false
  | .named _ inner => literalFree inner
  | .alt alternatives => literalFreeAll alternatives
  | .seq front rest back | .chars front rest back =>
    literalFreeAll front && literalFreeOption rest && literalFreeAll back
  | .composite fields => literalFreeFields fields
  | .apply _ args => literalFreeAll args
  | .function _ receiver params result =>
    literalFreeOption receiver && literalFree params && literalFree result
termination_by structural pattern => pattern

def literalFreeAll : List Pattern → Bool
  | [] => true
  | pattern :: rest => literalFree pattern && literalFreeAll rest
termination_by structural patterns => patterns

def literalFreeOption : Option Pattern → Bool
  | none => true
  | some pattern => literalFree pattern
termination_by structural pattern => pattern

def literalFreeFields : List (FieldPattern Pattern) → Bool
  | [] => true
  | ⟨_, _, value⟩ :: rest => literalFree value && literalFreeFields rest
termination_by structural fields => fields

end

end Pattern

namespace Resemblance

variable {decls : Declarations} (like : Resemblance decls)

/-- The same names are bound, to terms that are alike, and the names in `free` are not. -/
structure Captured (free : List String) (c c' : Captures) : Prop where
  bound : ∀ name, Option.Rel like.alike (c.get? name) (c'.get? name)
  free : ∀ name ∈ free, c.get? name = none

/-- Captures that are alike are extended to captures that are alike, or not at all. -/
def Matches (free left : List String) (m m' : Captures → Option Captures) : Prop :=
  ∀ c c', like.Captured free c c' → Option.Rel (like.Captured left) (m c) (m' c')

variable {like}

theorem Captured.mono {free more : List String} {c c' : Captures} (h : like.Captured more c c')
    (hfree : free ⊆ more) : like.Captured free c c' :=
  ⟨h.bound, fun name hname => h.free name (hfree hname)⟩

namespace Matches

variable {free left rest : List String} {m m' n n' : Captures → Option Captures}

theorem some : like.Matches free free Option.some Option.some := fun _ _ h => .some h

theorem none : like.Matches free left (fun _ => Option.none) fun _ => Option.none :=
  fun _ _ _ => .none

theorem mono (h : like.Matches free left m m') (hfree : free ⊆ rest) :
    like.Matches rest left m m' :=
  fun c c' hc => h c c' (hc.mono hfree)

theorem ite (p : Prop) [Decidable p] (h : like.Matches free left m m') :
    like.Matches free left (fun c => if p then m c else Option.none)
      fun c => if p then m' c else Option.none := by
  by_cases hp : p
  · simpa only [if_pos hp] using h
  · simpa only [if_neg hp] using none

theorem bind (h : like.Matches free left m m') (hn : like.Matches left rest n n') :
    like.Matches free rest (fun c => (m c).bind n) fun c => (m' c).bind n' := by
  intro c c' hc
  have hfirst := h c c' hc
  dsimp only
  generalize m c = r, m' c' = r' at hfirst
  cases hfirst with
  | none => exact .none
  | some hnext => exact hn _ _ hnext

/-- What the first way leaves unbound beyond `left` does not count. What neither way binds is free
for both, as only one of them is taken. -/
theorem orElse {first second : List String}
    (h : like.Matches (first ++ left) left m m') (hn : like.Matches (second ++ left) left n n') :
    like.Matches (first ++ second ++ left) left
      (fun c => match m c with
        | Option.some extended => Option.some extended
        | Option.none => n c)
      fun c => match m' c with
        | Option.some extended => Option.some extended
        | Option.none => n' c := by
  intro c c' hc
  have hfirst := h c c' (hc.mono fun name hname => by
    simp only [List.mem_append] at hname ⊢
    exact hname.imp_left .inl)
  have hsecond := hn c c' (hc.mono fun name hname => by
    simp only [List.mem_append] at hname ⊢
    exact hname.imp_left .inr)
  dsimp only
  generalize m c = r, m' c' = r' at hfirst
  cases hfirst with
  | none => exact hsecond
  | some hfound => exact .some hfound

/-- A name that is free is bound. -/
theorem bind? {name : String} {a b : Term} (hab : like.alike a b) (hname : name ∉ left) :
    like.Matches (name :: left) left (·.bind? name a) (·.bind? name b) := by
  intro c c' hc
  have hfree := hc.free name List.mem_cons_self
  have hsame := hc.bound name
  rw [hfree] at hsame
  have hfree' : c'.get? name = Option.none := by
    generalize c'.get? name = bound at hsame
    cases hsame
    rfl
  simp only [Captures.bind?, hfree, hfree']
  refine .some ⟨fun other => ?_, fun other hother => ?_⟩
  · rw [Captures.get?_set, Captures.get?_set]
    split
    · exact .some hab
    · exact hc.bound other
  · rw [Captures.get?_set, if_neg]
    · exact hc.free other (List.mem_cons_of_mem _ hother)
    · exact fun heq => hname (heq ▸ hother)

/-- The runs of a cut are bound, if their names are free and distinct. -/
theorem runs (runs : CutRuns) (hnames : (runs.map (·.1) ++ left).Nodup) :
    like.Matches (runs.map (·.1) ++ left) left
      (fun c => runs.foldlM (fun bound (name, run) => bound.bind? name (.text run)) c)
      fun c => runs.foldlM (fun bound (name, run) => bound.bind? name (.text run)) c := by
  induction runs with
  | nil => exact .some
  | cons run runs ih =>
    rw [List.map_cons, List.cons_append, List.nodup_cons] at hnames
    exact .bind (.bind? (like.text run.2) hnames.1) (ih hnames.2)

/-- What binds the names of the front, of the back and of the run between binds them all. -/
theorem ends {front between back : List String} {f f' r r' b b' : Captures → Option Captures}
    (hfront : ∀ left, (front ++ left).Nodup → like.Matches (front ++ left) left f f')
    (hback : ∀ left, (back ++ left).Nodup → like.Matches (back ++ left) left b b')
    (hbetween : ∀ left, (between ++ left).Nodup → like.Matches (between ++ left) left r r')
    (hnames : (front ++ between ++ back ++ left).Nodup) :
    like.Matches (front ++ between ++ back ++ left) left (fun c => ((f c).bind b).bind r)
      fun c => ((f' c).bind b').bind r' := by
  have hperm : (front ++ between ++ back ++ left).Perm (front ++ (back ++ (between ++ left))) := by
    simp only [List.append_assoc]
    exact List.Perm.append_left front (List.perm_append_comm_assoc between back left)
  have hall := hperm.nodup_iff.1 hnames
  have hrest := (List.nodup_append.1 hall).2.1
  exact .mono (.bind (.bind (hfront _ hall) (hback _ hrest)) (hbetween _ (List.nodup_append.1 hrest).2.1))
    hperm.symm.subset

end Matches

/-- Lists whose elements are alike are cut into parts whose elements are alike. -/
theorem cutEnds_alike {xs ys : List Term} (h : List.Forall₂ like.alike xs ys) (front back : Nat) :
    List.Forall₂ like.alike (cutEnds front back xs).1 (cutEnds front back ys).1 ∧
      List.Forall₂ like.alike (cutEnds front back xs).2.1 (cutEnds front back ys).2.1 ∧
        List.Forall₂ like.alike (cutEnds front back xs).2.2 (cutEnds front back ys).2.2 := by
  rw [cutEnds_eq, cutEnds_eq, h.length_eq]
  exact ⟨List.forall₂_take _ h, List.forall₂_take _ (List.forall₂_drop _ h),
    List.forall₂_drop _ (List.forall₂_drop _ h)⟩

theorem alike_chars (chars : List Char) :
    List.Forall₂ like.alike (chars.map .ofChar) (chars.map .ofChar) := by
  induction chars with
  | nil => exact .nil
  | cons c chars ih => exact .cons (like.text _) ih

/-- A field pattern looks at values that are alike, or finds none. -/
theorem select?_alike (presence : Presence) {x y : Option (Entry Term)}
    (h : Option.Rel (Entry.Alike like.alike) x y) :
    Option.Rel like.alike (presence.select? x) (presence.select? y) := by
  cases h with
  | none =>
    cases presence with
    | maybeAbsent => exact .some like.unknown
    | _ => exact .none
  | @some x y hfield =>
    cases presence with
    | required =>
      simp only [Presence.select?, hfield.modifiers]
      split
      · exact .none
      · exact .some hfield.value
    | _ => exact .some hfield.value

open Pattern

mutual

/-- A pattern takes terms that are alike apart in the same way. -/
theorem extend?_alike (pattern : Pattern) {left : List String} {a b : Term}
    (hliteral : pattern.literalFree = true) (htargets : ∀ target ∈ pattern.terms, like.targets target)
    (hnames : (pattern.names ++ left).Nodup) (hab : like.alike a b) :
    like.Matches (pattern.names ++ left) left (pattern.extend? decls a) (pattern.extend? decls b) := by
  match pattern with
  | .any => exact .some
  | .bind name => exact .bind? hab (List.nodup_cons.1 hnames).1
  | .named name inner =>
    have hinner : (inner.names ++ name :: left).Nodup := List.perm_middle.nodup_iff.2 hnames
    have hname : name ∉ left := fun hmem =>
      (List.nodup_cons.1 hnames).1 (List.mem_append_right inner.names hmem)
    refine Matches.mono (.bind (extend?_alike inner hliteral htargets hinner hab) (.bind? hab hname)) ?_
    exact List.perm_middle.subset
  | .literal _ => cases hliteral
  | .fits target =>
    simp only [extend?, like.fits (htargets target List.mem_cons_self) hab]
    exact .ite _ .some
  | .alt alternatives => exact extendFirst?_alike alternatives hliteral htargets hnames hab
  | .kind k =>
    have hkind : (decls.resolve a).kind = (decls.resolve b).kind := by
      have hresolved := like.resolve hab
      generalize decls.resolve a = x, decls.resolve b = y at hresolved
      cases hresolved <;> rfl
    simp only [extend?, hkind]
    exact .ite _ .some
  | .seq front rest back =>
    simp only [literalFree, Bool.and_eq_true] at hliteral
    simp only [terms, List.forall_mem_append] at htargets
    have hresolved := like.resolve hab
    simp only [extend?]
    generalize decls.resolve a = x, decls.resolve b = y at hresolved
    cases hresolved with
    | seq hitems =>
      obtain ⟨hfirst, hmiddle, hlast⟩ := cutEnds_alike hitems front.length back.length
      simp only [hitems.length_eq]
      refine .ite _ (.ends ?_ ?_ ?_ hnames)
      · exact fun left hnodup => extendEach?_alike front hliteral.1.1 htargets.1.1 hnodup hfirst
      · exact fun left hnodup => extendEach?_alike back hliteral.2 htargets.2 hnodup hlast
      · exact fun left hnodup =>
          extendRest?_alike rest hliteral.1.2 htargets.1.2 hnodup (like.seq hmiddle)
    | _ => exact .none
  | .chars front rest back =>
    simp only [literalFree, Bool.and_eq_true] at hliteral
    simp only [terms, List.forall_mem_append] at htargets
    have hresolved := like.resolve hab
    simp only [extend?]
    generalize decls.resolve a = x, decls.resolve b = y at hresolved
    cases hresolved with
    | text s =>
      refine .ite _ (.ends ?_ ?_ ?_ hnames)
      · exact fun left hnodup =>
          extendEach?_alike front hliteral.1.1 htargets.1.1 hnodup (alike_chars _)
      · exact fun left hnodup => extendEach?_alike back hliteral.2 htargets.2 hnodup (alike_chars _)
      · exact fun left hnodup =>
          extendRest?_alike rest hliteral.1.2 htargets.1.2 hnodup (like.text _)
    | _ => exact .none
  | .text segments =>
    have hresolved := like.resolve hab
    simp only [extend?]
    generalize decls.resolve a = x, decls.resolve b = y at hresolved
    cases hresolved with
    | text s =>
      dsimp only
      cases hcut : Segment.cut? segments s with
      | none => exact .none
      | some runs =>
        have hnames' : (Pattern.text segments).names = runs.map (·.1) :=
          (Segment.map_fst_of_cut? hcut).symm
        rw [hnames'] at hnames ⊢
        exact .runs runs hnames
    | _ => exact .none
  | .composite fields =>
    have hresolved := like.resolve hab
    simp only [extend?]
    generalize decls.resolve a = x, decls.resolve b = y at hresolved
    cases hresolved with
    | composite hfields => exact extendFields?_alike fields hliteral htargets hnames hfields
    | _ => exact .none
  | .apply head args =>
    have hresolved := like.resolve hab
    simp only [extend?]
    generalize decls.resolve a = x, decls.resolve b = y at hresolved
    cases hresolved with
    | apply actual hitems =>
      simp only [hitems.length_eq]
      exact .ite _ (extendEach?_alike args hliteral htargets hnames hitems)
    | _ => exact .none
  | .function k receiver params result =>
    simp only [literalFree, Bool.and_eq_true] at hliteral
    simp only [terms, List.forall_mem_append] at htargets
    simp only [names, List.append_assoc] at hnames ⊢
    have hresolved := like.resolve hab
    simp only [extend?]
    generalize decls.resolve a = x, decls.resolve b = y at hresolved
    cases hresolved with
    | function actual hreceiver hparams hresult =>
      have hgiven : ∀ {r r'}, Option.Rel like.alike r r' →
          like.alike (r.getD .unknown) (r'.getD .unknown) := fun h => by
        cases h with
        | none => exact like.unknown
        | some h => exact h
      have hrest := (List.nodup_append.1 hnames).2.1
      have hfirst :=
        extendRest?_alike receiver hliteral.1.1 htargets.1.1 hnames (hgiven hreceiver)
      have hsecond := extend?_alike params hliteral.1.2 htargets.1.2 hrest (like.seq hparams)
      have hthird :=
        extend?_alike result hliteral.2 htargets.2 (List.nodup_append.1 hrest).2.1 hresult
      exact .ite _ (.bind (.bind hfirst hsecond) hthird)
    | _ => exact .none
termination_by structural pattern

theorem extendEach?_alike (patterns : List Pattern) {left : List String} {xs ys : List Term}
    (hliteral : literalFreeAll patterns = true) (htargets : ∀ target ∈ termsAll patterns, like.targets target)
    (hnames : (namesAll patterns ++ left).Nodup) (h : List.Forall₂ like.alike xs ys) :
    like.Matches (namesAll patterns ++ left) left (extendEach? decls patterns xs)
      (extendEach? decls patterns ys) := by
  match patterns, h with
  | [], _ => exact .some
  | pattern :: patterns, .nil =>
    exact Matches.mono .some (List.subset_append_right _ _)
  | pattern :: patterns, .cons hab h =>
    rw [literalFreeAll, Bool.and_eq_true] at hliteral
    rw [termsAll, List.forall_mem_append] at htargets
    rw [namesAll, List.append_assoc] at hnames ⊢
    exact .bind (extend?_alike pattern hliteral.1 htargets.1 hnames hab)
      (extendEach?_alike patterns hliteral.2 htargets.2 (List.nodup_append.1 hnames).2.1 h)
termination_by structural patterns

theorem extendRest?_alike (pattern : Option Pattern) {left : List String} {a b : Term}
    (hliteral : literalFreeOption pattern = true)
    (htargets : ∀ target ∈ termsOption pattern, like.targets target)
    (hnames : (namesOption pattern ++ left).Nodup) (hab : like.alike a b) :
    like.Matches (namesOption pattern ++ left) left (extendRest? decls pattern a)
      (extendRest? decls pattern b) := by
  match pattern with
  | none => exact .some
  | some pattern => exact extend?_alike pattern hliteral htargets hnames hab
termination_by structural pattern

/-- The same alternative is the first to match. -/
theorem extendFirst?_alike (alternatives : List Pattern) {left : List String} {a b : Term}
    (hliteral : literalFreeAll alternatives = true)
    (htargets : ∀ target ∈ termsAll alternatives, like.targets target)
    (hnames : (namesAll alternatives ++ left).Nodup) (hab : like.alike a b) :
    like.Matches (namesAll alternatives ++ left) left (extendFirst? decls alternatives a)
      (extendFirst? decls alternatives b) := by
  match alternatives with
  | [] => exact .none
  | pattern :: patterns =>
    rw [literalFreeAll, Bool.and_eq_true] at hliteral
    rw [termsAll, List.forall_mem_append] at htargets
    rw [namesAll] at hnames ⊢
    have hfirst : (pattern.names ++ left).Nodup :=
      hnames.sublist ((List.sublist_append_left _ _).append (.refl left))
    have hothers : (namesAll patterns ++ left).Nodup :=
      hnames.sublist ((List.sublist_append_right _ _).append (.refl left))
    simp only [extendFirst?]
    exact .orElse (extend?_alike pattern hliteral.1 htargets.1 hfirst hab)
      (extendFirst?_alike patterns hliteral.2 htargets.2 hothers hab)
termination_by structural alternatives

theorem extendFields?_alike (fields : List (FieldPattern Pattern)) {left : List String}
    {xs ys : Composite} (hliteral : literalFreeFields fields = true)
    (htargets : ∀ target ∈ termsFields fields, like.targets target)
    (hnames : (namesFields fields ++ left).Nodup)
    (h : ∀ key, Option.Rel (Entry.Alike like.alike) (xs.get? key) (ys.get? key)) :
    like.Matches (namesFields fields ++ left) left (extendFields? decls fields xs)
      (extendFields? decls fields ys) := by
  match fields with
  | [] => exact .some
  | ⟨key, presence, value⟩ :: fields =>
    rw [literalFreeFields, Bool.and_eq_true] at hliteral
    rw [termsFields, List.forall_mem_append] at htargets
    rw [namesFields, List.append_assoc] at hnames ⊢
    have hselect := select?_alike presence (h key)
    simp only [extendFields?]
    generalize presence.select? (xs.get? key) = x, presence.select? (ys.get? key) = y at hselect
    cases hselect with
    | none => exact .none
    | some hvalue =>
      exact .bind (extend?_alike value hliteral.1 htargets.1 hnames hvalue)
        (extendFields?_alike fields hliteral.2 htargets.2 (List.nodup_append.1 hnames).2.1 h)
termination_by structural fields

end

/-- A pattern without literals in which no name stands twice matches both of two terms that are
alike or neither, and what it binds is alike. -/
theorem captures?_alike {pattern : Pattern} (hliteral : pattern.literalFree = true)
    (hnames : pattern.names.Nodup) (htargets : ∀ target ∈ pattern.terms, like.targets target)
    {a b : Term} (hab : like.alike a b) :
    Option.Rel (like.Captured []) (pattern.captures? decls a) (pattern.captures? decls b) := by
  have hempty : like.Captured (pattern.names ++ []) ∅ ∅ := ⟨fun _ => .none, fun _ _ => rfl⟩
  have hnames' : (pattern.names ++ []).Nodup := by
    rw [List.append_nil]
    exact hnames
  exact extend?_alike pattern hliteral htargets hnames' hab ∅ ∅ hempty

end Resemblance

end Reshape
