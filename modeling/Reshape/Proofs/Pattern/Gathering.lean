import Reshape.Proofs.Captures.Consistency
import Reshape.Proofs.Pattern.Visits

/-!
# Matches without alternations

A match threads captures through what it visits, and fails at the first part that does not suit or
cannot be bound. For a pattern without alternations that comes to binding all that is collected if all
that is visited suits (`Captures.Gathers`, `Pattern.extend?_gathers`).

So such a pattern matches exactly if all that is visited suits, and no name is collected for two terms
that are not equal (`Pattern.captures?_declarative`). What it binds is what was collected, in whatever
order that is bound.
-/

namespace Reshape

namespace Captures

/-- `m` fails unless what it looks at suits, and otherwise binds what is collected, in some order. -/
structure Gathers (suits : Prop) (collected : String → Term → Prop)
    (m : Captures → Option Captures) : Prop where
  fails : ¬ suits → ∀ captures, m captures = none
  binds : suits → ∃ pairs, (∀ name term, (name, term) ∈ pairs ↔ collected name term) ∧
    ∀ captures, m captures = bindAll pairs captures

namespace Gathers

variable {suits suits' : Prop} {collected collected' : String → Term → Prop}
  {m n : Captures → Option Captures}

theorem pairs (pairs : List (String × Term)) :
    Gathers True (fun name term => (name, term) ∈ pairs) (bindAll pairs) :=
  ⟨fun h => absurd trivial h, fun _ => ⟨pairs, fun _ _ => Iff.rfl, fun _ => rfl⟩⟩

theorem congr (h : Gathers suits collected m) (hsuits : suits' ↔ suits)
    (hcollected : ∀ name term, collected' name term ↔ collected name term) :
    Gathers suits' collected' m := by
  refine ⟨fun hnot => h.fails fun hs => hnot (hsuits.2 hs), fun hs => ?_⟩
  obtain ⟨pairs, hpairs, heq⟩ := h.binds (hsuits.1 hs)
  exact ⟨pairs, fun name term => (hpairs name term).trans (hcollected name term).symm, heq⟩

theorem bind (h : Gathers suits collected m) (hn : Gathers suits' collected' n) :
    Gathers (suits ∧ suits') (fun name term => collected name term ∨ collected' name term)
      fun captures => (m captures).bind n := by
  refine ⟨fun hnot captures => ?_, fun hs => ?_⟩
  · by_cases hfirst : suits
    · have hsecond : ¬ suits' := fun hsecond => hnot ⟨hfirst, hsecond⟩
      cases hm : m captures with
      | none => rfl
      | some bound => exact hn.fails hsecond bound
    · rw [h.fails hfirst, Option.bind_none]
  · obtain ⟨pairs, hpairs, heq⟩ := h.binds hs.1
    obtain ⟨more, hmore, heq'⟩ := hn.binds hs.2
    refine ⟨pairs ++ more, fun name term => ?_, fun captures => ?_⟩
    · rw [List.mem_append, hpairs, hmore]
    · rw [heq, bindAll_append, funext heq']

end Gathers

end Captures

namespace Pattern

open Captures

variable {decls : Declarations} {tasks more : List (Pattern × Term)} {m n : Captures → Option Captures}

/-- `m` matches all the patterns against their terms. -/
def Covers (decls : Declarations) (tasks : List (Pattern × Term)) (m : Captures → Option Captures) :
    Prop :=
  Gathers (∀ task ∈ tasks, SuitsThroughout decls task.1 task.2)
    (fun name term => ∃ task ∈ tasks, Collects decls task.1 task.2 name term) m

namespace Covers

theorem nil : Covers decls [] some :=
  (Gathers.pairs []).congr (by simp) (by simp)

theorem one {pattern : Pattern} {term : Term}
    (h : Gathers (SuitsThroughout decls pattern term) (Collects decls pattern term) m) :
    Covers decls [(pattern, term)] m :=
  h.congr (by simp) (by simp)

theorem append (h : Covers decls tasks m) (hn : Covers decls more n) :
    Covers decls (tasks ++ more) fun captures => (m captures).bind n :=
  (Gathers.bind h hn).congr List.forall_mem_append (by simp [or_and_right, exists_or])

end Covers

/-- A pattern gathers what it collects itself and what the patterns inside of it gather. -/
theorem gathers_of_parts {pattern : Pattern} {term : Term}
    (hmatch : ∀ {captures extended}, pattern.extend? decls term captures = some extended →
      pattern.Suits decls term)
    (hsuits : pattern.Suits decls term → ∃ m, Covers decls (pattern.parts decls term) m ∧
      ∀ captures, pattern.extend? decls term captures =
        (m captures).bind (bindAll (pattern.own decls term))) :
    Gathers (SuitsThroughout decls pattern term) (Collects decls pattern term)
      (pattern.extend? decls term) := by
  by_cases hself : pattern.Suits decls term
  · obtain ⟨m, hm, heq⟩ := hsuits hself
    rw [funext heq]
    refine (Gathers.bind hm (.pairs _)).congr ?_ fun name collected => ?_
    · rw [suitsThroughout_iff]
      exact ⟨fun h => ⟨h.2, trivial⟩, fun h => ⟨hself, h.1⟩⟩
    · rw [collects_iff]
      exact or_comm
  · have hnot : ¬ SuitsThroughout decls pattern term := fun h => hself (suitsThroughout_iff.1 h).1
    refine ⟨fun _ captures => ?_, fun h => absurd h hnot⟩
    exact Option.eq_none_iff_forall_ne_some.2 fun extended h => hself (hmatch h)

/-- A pattern that collects nothing itself. -/
theorem gathers_of_covers {pattern : Pattern} {term : Term} (hown : pattern.own decls term = [])
    (hmatch : ∀ {captures extended}, pattern.extend? decls term captures = some extended →
      pattern.Suits decls term)
    (hsuits : pattern.Suits decls term →
      Covers decls (pattern.parts decls term) (pattern.extend? decls term)) :
    Gathers (SuitsThroughout decls pattern term) (Collects decls pattern term)
      (pattern.extend? decls term) := by
  refine gathers_of_parts hmatch fun hself => ⟨_, hsuits hself, fun captures => ?_⟩
  rw [hown]
  exact (Option.bind_fun_some _).symm

/-- A pattern that only tests its term. -/
theorem gathers_of_test {pattern : Pattern} {term : Term} {p : Prop} [Decidable p]
    (hown : pattern.own decls term = []) (hparts : pattern.parts decls term = [])
    (hsuits : pattern.Suits decls term ↔ p)
    (htest : ∀ captures,
      pattern.extend? decls term captures = if p then some captures else none) :
    Gathers (SuitsThroughout decls pattern term) (Collects decls pattern term)
      (pattern.extend? decls term) := by
  refine gathers_of_covers hown (fun h => ?_) fun h => ?_
  · rw [htest] at h
    split at h
    · exact hsuits.2 ‹_›
    · cases h
  · have heq : pattern.extend? decls term = some := by
      funext captures
      rw [htest, if_pos (hsuits.1 h)]
    rw [heq, hparts]
    exact .nil

/-! ## Both ends and the run between -/

theorem zip_take_length {α β : Type} (xs : List α) (ys : List β) :
    xs.zip (ys.take xs.length) = xs.zip ys := by
  induction xs generalizing ys with
  | nil => rfl
  | cons x xs ih =>
    cases ys with
    | nil => rfl
    | cons y ys => rw [List.length_cons, List.take_succ_cons, List.zip_cons_cons, List.zip_cons_cons, ih]

theorem takesLength_iff {front back : List Pattern} {rest : Option Pattern} {length : Nat} :
    takesLength front.length back.length rest.isSome length = true ↔
      TakesLength front rest back length := by
  cases rest with
  | none =>
    simp only [takesLength, TakesLength, Option.isSome_none, Bool.false_and, Bool.or_false,
      decide_eq_true_eq, forall_const]
    omega
  | some pattern =>
    simp only [takesLength, TakesLength, Option.isSome_some, Bool.true_and, Bool.or_eq_true,
      decide_eq_true_eq, reduceCtorEq, false_implies, and_true]
    omega

/-- The elements at the ends are those that the list is cut into. -/
theorem endParts_eq {front back : List Pattern} {rest : Option Pattern} {items : List Term} {run : Term}
    (h : TakesLength front rest back items.length) :
    endParts front rest back items run =
      front.zip (items.take front.length) ++
        back.zip ((items.drop front.length).drop (items.length - front.length - back.length)) ++
        rest.toList.map (·, run) := by
  have hindex : front.length + (items.length - front.length - back.length) =
      items.length - back.length := by
    have hle := h.1
    omega
  rw [endParts, zip_take_length, List.drop_drop, hindex]

/-- The characters at the ends and the text between them. -/
theorem cutChars_eq {front back : Nat} {s : String} (h : front + back ≤ s.length) :
    cutChars front back s = (s.toList.take front, .ofList (between front back s.toList),
      (s.toList.drop front).drop (s.toList.length - front - back)) := by
  have hindex : front + (s.toList.length - front - back) = s.toList.length - back := by
    rw [String.length_toList]
    omega
  have hmiddle : (cutChars front back s).2.1.toList = between front back s.toList := by
    simp [cutChars, between]
  refine Prod.ext ?_ (Prod.ext ?_ ?_)
  · simp [cutChars]
  · rw [← String.toList_inj, hmiddle, String.toList_ofList]
  · rw [List.drop_drop, hindex]
    simp [cutChars]

/-- Matches the elements at both ends, and then the run between them. -/
def extendEnds? (decls : Declarations) (front : List Pattern) (rest : Option Pattern)
    (back : List Pattern) (items : List Term) (run : Term) (captures : Captures) : Option Captures :=
  ((extendEach? decls front (items.take front.length) captures).bind
    (extendEach? decls back
      ((items.drop front.length).drop (items.length - front.length - back.length)))).bind
    (extendRest? decls rest run)

theorem Covers.ends {front back : List Pattern} {rest : Option Pattern} {items : List Term} {run : Term}
    (htakes : TakesLength front rest back items.length)
    (hfront : ∀ terms, Covers decls (front.zip terms) (extendEach? decls front terms))
    (hback : ∀ terms, Covers decls (back.zip terms) (extendEach? decls back terms))
    (hrest : Covers decls (rest.toList.map (·, run)) (extendRest? decls rest run)) :
    Covers decls (endParts front rest back items run) (extendEnds? decls front rest back items run) := by
  rw [endParts_eq htakes]
  exact ((hfront _).append (hback _)).append hrest

section

variable {front back : List Pattern} {rest : Option Pattern} {term : Term}
  {captures extended : Captures}

theorem exists_of_extend?_seq
    (h : (Pattern.seq front rest back).extend? decls term captures = some extended) :
    ∃ items, decls.resolve term = .seq items ∧ TakesLength front rest back items.length := by
  rw [extend?] at h
  split at h
  · rename_i items hitems
    split at h
    · rename_i htakes
      exact ⟨items, hitems, takesLength_iff.1 htakes⟩
    · cases h
  · cases h

theorem exists_of_extend?_chars
    (h : (Pattern.chars front rest back).extend? decls term captures = some extended) :
    ∃ s, decls.resolve term = .text s ∧ TakesLength front rest back s.length := by
  rw [extend?] at h
  split at h
  · rename_i s hs
    split at h
    · rename_i htakes
      exact ⟨s, hs, takesLength_iff.1 htakes⟩
    · cases h
  · cases h

theorem parts_seq {items : List Term} (h : decls.resolve term = .seq items) :
    (Pattern.seq front rest back).parts decls term =
      endParts front rest back items (.seq (between front.length back.length items)) := by
  rw [parts, h]

theorem extend?_seq {items : List Term} (h : decls.resolve term = .seq items)
    (htakes : TakesLength front rest back items.length) :
    (Pattern.seq front rest back).extend? decls term =
      extendEnds? decls front rest back items (.seq (between front.length back.length items)) := by
  funext captures
  rw [extend?, h]
  dsimp only
  rw [cutEnds_eq]
  exact if_pos (takesLength_iff.2 htakes)

theorem parts_chars {s : String} (h : decls.resolve term = .text s) :
    (Pattern.chars front rest back).parts decls term =
      endParts front rest back (s.toList.map .ofChar)
        (.text (.ofList (between front.length back.length s.toList))) := by
  rw [parts, h]

theorem extend?_chars {s : String} (h : decls.resolve term = .text s)
    (htakes : TakesLength front rest back s.length) :
    (Pattern.chars front rest back).extend? decls term =
      extendEnds? decls front rest back (s.toList.map .ofChar)
        (.text (.ofList (between front.length back.length s.toList))) := by
  funext captures
  rw [extend?, h]
  dsimp only
  rw [cutChars_eq htakes.1, extendEnds?, List.length_map, ← List.map_take, ← List.map_drop,
    ← List.map_drop]
  exact if_pos (takesLength_iff.2 htakes)

end

/-! ## Matching gathers what is visited -/

/-- Fields that match are all there as they should be. -/
theorem select?_of_extendFields? {fields : List (FieldPattern Pattern)} {entries : Composite}
    {captures extended : Captures} (h : extendFields? decls fields entries captures = some extended) :
    ∀ field ∈ fields, (field.presence.select? (entries.get? field.key)).isSome = true := by
  induction fields generalizing captures with
  | nil => exact List.forall_mem_nil _
  | cons field fields ih =>
    obtain ⟨key, presence, value⟩ := field
    rw [extendFields?] at h
    split at h
    · rename_i term hselect
      obtain ⟨bound, -, hrest⟩ := Option.bind_eq_some_iff.1 h
      exact List.forall_mem_cons.2 ⟨by rw [hselect]; rfl, ih hrest⟩
    · cases h

mutual

/-- A match without alternations gathers what it visits. -/
theorem extend?_gathers (pattern : Pattern) (halt : pattern.altFree = true) (term : Term) :
    Gathers (SuitsThroughout decls pattern term) (Collects decls pattern term)
      (pattern.extend? decls term) := by
  match pattern with
  | .any => exact gathers_of_covers rfl (fun _ => trivial) fun _ => .nil
  | .bind name =>
    refine gathers_of_parts (fun _ => trivial) fun _ => ⟨some, .nil, fun captures => ?_⟩
    exact (Option.bind_fun_some _).symm
  | .named name inner =>
    refine gathers_of_parts (fun _ => trivial) fun _ =>
      ⟨_, .one (extend?_gathers inner halt term), fun captures => ?_⟩
    rw [extend?]
    congr 1
    funext bound
    exact (Option.bind_fun_some _).symm
  | .literal expected => exact gathers_of_test rfl rfl (Bool.or_eq_true _ _).symm.to_iff fun _ => rfl
  | .kind k =>
    exact gathers_of_test (p := (decls.resolve term).kind = k) rfl rfl Iff.rfl fun _ => rfl
  | .fits target =>
    exact gathers_of_test (p := decls.assignable term target = true) rfl rfl Iff.rfl fun _ => rfl
  | .alt _ => cases halt
  | .seq front rest back =>
    simp only [altFree, Bool.and_eq_true] at halt
    refine gathers_of_covers rfl exists_of_extend?_seq fun h => ?_
    obtain ⟨items, hitems, htakes⟩ := h
    rw [extend?_seq hitems htakes, parts_seq hitems]
    exact .ends htakes (fun _ => extendEach?_covers front halt.1.1 _)
      (fun _ => extendEach?_covers back halt.2 _) (extendRest?_covers rest halt.1.2 _)
  | .chars front rest back =>
    simp only [altFree, Bool.and_eq_true] at halt
    refine gathers_of_covers rfl exists_of_extend?_chars fun h => ?_
    obtain ⟨s, hs, htakes⟩ := h
    have hlength : TakesLength front rest back (s.toList.map Term.ofChar).length := by
      rwa [List.length_map, String.length_toList]
    rw [extend?_chars hs htakes, parts_chars hs]
    exact .ends hlength (fun _ => extendEach?_covers front halt.1.1 _)
      (fun _ => extendEach?_covers back halt.2 _) (extendRest?_covers rest halt.1.2 _)
  | .text segments =>
    refine gathers_of_parts (fun h => ?_) fun h => ⟨some, .nil, fun captures => ?_⟩
    · rw [extend?] at h
      split at h
      · rename_i s hs
        obtain ⟨runs, hcut, -⟩ := Option.bind_eq_some_iff.1 h
        exact ⟨s, hs, by rw [hcut]; rfl⟩
      · cases h
    · obtain ⟨s, hs, hcut⟩ := h
      obtain ⟨runs, hruns⟩ := Option.isSome_iff_exists.1 hcut
      rw [extend?, own, hs]
      dsimp only
      rw [hruns, Option.bind_some, Option.bind_some, Option.getD_some, bindAll, List.foldlM_map]
  | .composite fields =>
    refine gathers_of_covers rfl (fun h => ?_) fun h => ?_
    · rw [extend?] at h
      split at h
      · exact ⟨_, ‹_›, select?_of_extendFields? h⟩
      · cases h
    · obtain ⟨entries, hentries, hall⟩ := h
      have heq : (Pattern.composite fields).extend? decls term = extendFields? decls fields entries := by
        funext captures
        rw [extend?, hentries]
      rw [heq, parts, hentries]
      exact extendFields?_covers fields halt entries hall
  | .apply head args =>
    refine gathers_of_covers rfl (fun h => ?_) fun h => ?_
    · rw [extend?] at h
      split at h
      · rename_i actual items hitems
        split at h
        · rename_i hsame
          rw [Bool.and_eq_true, decide_eq_true_eq, decide_eq_true_eq] at hsame
          obtain ⟨rfl, hlength⟩ := hsame
          exact ⟨items, hitems, hlength⟩
        · cases h
      · cases h
    · obtain ⟨items, hitems, hlength⟩ := h
      have heq : (Pattern.apply head args).extend? decls term = extendEach? decls args items := by
        funext captures
        rw [extend?, hitems]
        exact if_pos (by rw [hlength, decide_eq_true rfl, decide_eq_true rfl, Bool.and_self])
      rw [heq, parts, hitems]
      exact extendEach?_covers args halt items
  | .function k receiver params result =>
    simp only [altFree, Bool.and_eq_true] at halt
    refine gathers_of_covers rfl (fun h => ?_) fun h => ?_
    · rw [extend?] at h
      split at h
      · rename_i actual given items value hshape
        split at h
        · rename_i hkind
          subst hkind
          exact ⟨given, items, value, hshape⟩
        · cases h
      · cases h
    · obtain ⟨given, items, value, hshape⟩ := h
      have heq : (Pattern.function k receiver params result).extend? decls term = fun captures =>
          ((extendRest? decls receiver (given.getD .unknown) captures).bind
            (params.extend? decls (.seq items))).bind (result.extend? decls value) := by
        funext captures
        rw [extend?, hshape]
        exact if_pos rfl
      have hparts : (Pattern.function k receiver params result).parts decls term =
          receiver.toList.map (·, given.getD .unknown) ++ [(params, .seq items)] ++
            [(result, value)] := by
        rw [parts, hshape, List.append_assoc]
        rfl
      rw [heq, hparts]
      exact ((extendRest?_covers receiver halt.1.1 _).append
        (.one (extend?_gathers params halt.1.2 _))).append (.one (extend?_gathers result halt.2 _))
termination_by structural pattern

theorem extendEach?_covers (patterns : List Pattern) (halt : altFreeAll patterns = true)
    (terms : List Term) : Covers decls (patterns.zip terms) (extendEach? decls patterns terms) := by
  match patterns, terms with
  | [], _ => exact .nil
  | _ :: _, [] => exact .nil
  | pattern :: patterns, term :: terms =>
    rw [altFreeAll, Bool.and_eq_true] at halt
    exact (Covers.one (extend?_gathers pattern halt.1 term)).append
      (extendEach?_covers patterns halt.2 terms)
termination_by structural patterns

theorem extendRest?_covers (rest : Option Pattern) (halt : altFreeOption rest = true) (term : Term) :
    Covers decls (rest.toList.map (·, term)) (extendRest? decls rest term) := by
  match rest with
  | none => exact .nil
  | some pattern => exact .one (extend?_gathers pattern halt term)
termination_by structural rest

theorem extendFields?_covers (fields : List (FieldPattern Pattern)) (halt : altFreeFields fields = true)
    (entries : Composite)
    (hall : ∀ field ∈ fields, (field.presence.select? (entries.get? field.key)).isSome = true) :
    Covers decls (fieldParts fields entries) (extendFields? decls fields entries) := by
  match fields with
  | [] => exact .nil
  | ⟨key, presence, value⟩ :: fields =>
    rw [altFreeFields, Bool.and_eq_true] at halt
    rw [List.forall_mem_cons] at hall
    obtain ⟨term, hterm⟩ := Option.isSome_iff_exists.1 hall.1
    have hparts : fieldParts (⟨key, presence, value⟩ :: fields) entries =
        [(value, term)] ++ fieldParts fields entries := by
      rw [fieldParts, List.filterMap_cons, hterm]
      rfl
    have heq : extendFields? decls (⟨key, presence, value⟩ :: fields) entries = fun captures =>
        (value.extend? decls term captures).bind (extendFields? decls fields entries) := by
      funext captures
      rw [extendFields?, hterm]
    rw [hparts, heq]
    exact (Covers.one (extend?_gathers value halt.1 term)).append
      (extendFields?_covers fields halt.2 entries hall.2)
termination_by structural fields

end

/-- A pattern without alternations is matched by what suits it throughout: it matches exactly if all
that is visited suits, and any two terms that a name is collected for are equal. Then exactly the
names that are collected are bound, each of them to a term that is equal to all that it is collected
for; and the pairs that are collected can be bound in any order, to the same effect. -/
theorem captures?_declarative (pattern : Pattern) (halt : pattern.altFree = true) (term : Term)
    (hdecls : decls.WellKeyed) (hterm : term.WellKeyed) :
    ((∃ captures, pattern.captures? decls term = some captures) ↔
      SuitsThroughout decls pattern term ∧
        ∀ name a b, Collects decls pattern term name a → Collects decls pattern term name b →
          (a == b) = true) ∧
    (∀ captures, pattern.captures? decls term = some captures → ∀ name,
      (captures.contains name = true ↔ ∃ a, Collects decls pattern term name a) ∧
        ∀ a, Collects decls pattern term name a →
          ∃ bound, captures.get? name = some bound ∧ (bound == a) = true) ∧
    (SuitsThroughout decls pattern term → ∀ order : List (String × Term),
      (∀ name a, (name, a) ∈ order ↔ Collects decls pattern term name a) →
        Option.Rel Captures.Agrees (Captures.bindAll order ∅) (pattern.captures? decls term)) := by
  have hgathers : Captures.Gathers (SuitsThroughout decls pattern term) _ _ :=
    extend?_gathers pattern halt term
  by_cases hsuits : SuitsThroughout decls pattern term
  · obtain ⟨pairs, hpairs, heq⟩ := hgathers.binds hsuits
    have hwell : ∀ pair ∈ pairs, pair.2.WellKeyed := fun pair hmem =>
      ((hpairs pair.1 pair.2).1 hmem).wellKeyed hdecls hterm
    have hcaptures : pattern.captures? decls term = Captures.bindAll pairs ∅ := heq ∅
    refine ⟨?_, fun captures h name => ⟨?_, fun a ha => ?_⟩, fun _ order horder => ?_⟩
    · rw [hcaptures, Captures.bindAll_eq_some_iff hwell, Consistent]
      simp only [hpairs, hsuits, true_and]
    · rw [hcaptures] at h
      constructor
      · intro hcontains
        obtain ⟨a, hget⟩ := Option.isSome_iff_exists.1 hcontains
        exact ⟨a, (hpairs name a).1 (Captures.mem_of_get?_bindAll h hget)⟩
      · rintro ⟨a, ha⟩
        obtain ⟨bound, hget, -⟩ := Captures.exists_of_bindAll h ((hpairs name a).2 ha)
        exact Option.isSome_iff_exists.2 ⟨bound, hget⟩
    · rw [hcaptures] at h
      exact Captures.exists_equal_of_bindAll hwell h ((hpairs name a).2 ha)
    · rw [hcaptures]
      exact Captures.bindAll_reordered hwell fun pair =>
        (horder pair.1 pair.2).trans (hpairs pair.1 pair.2).symm
  · have hnone : pattern.captures? decls term = none := hgathers.fails hsuits ∅
    refine ⟨?_, fun captures h => ?_, fun h => absurd h hsuits⟩
    · rw [hnone]
      refine ⟨?_, fun h => absurd h.1 hsuits⟩
      rintro ⟨_, h⟩
      cases h
    · cases hnone.symm.trans h

/-- A point and a segment that ends there. -/
def endsThere : Pattern :=
  tuple [.bind "point", .composite [⟨"end", .required, .named "point" (.kind .composite)⟩]]

/-- The coordinates of the point are written in two orders. -/
theorem captures?_endsThere :
    ∃ captures, endsThere.captures? ∅ (.seq [.composite [⟨"x", .int 1, {}⟩, ⟨"y", .int 2, {}⟩],
        .composite [⟨"end", .composite [⟨"y", .int 2, {}⟩, ⟨"x", .int 1, {}⟩], {}⟩]]) = some captures ∧
      ∀ a, Collects ∅ endsThere (.seq [.composite [⟨"x", .int 1, {}⟩, ⟨"y", .int 2, {}⟩],
        .composite [⟨"end", .composite [⟨"y", .int 2, {}⟩, ⟨"x", .int 1, {}⟩], {}⟩]]) "point" a →
        ∃ bound, captures.get? "point" = some bound ∧ (bound == a) = true := by
  have hmatches : (endsThere.captures? ∅ (.seq [.composite [⟨"x", .int 1, {}⟩, ⟨"y", .int 2, {}⟩],
      .composite [⟨"end", .composite [⟨"y", .int 2, {}⟩, ⟨"x", .int 1, {}⟩], {}⟩]])).isSome =
      true := by decide +kernel
  obtain ⟨captures, hcaptures⟩ := Option.isSome_iff_exists.1 hmatches
  have hdeclarative := captures?_declarative endsThere rfl (.seq [.composite [⟨"x", .int 1, {}⟩,
      ⟨"y", .int 2, {}⟩], .composite [⟨"end", .composite [⟨"y", .int 2, {}⟩, ⟨"x", .int 1, {}⟩], {}⟩]])
    Declarations.wellKeyed_empty (by simp [Composite.Distinct, Composite.keys, Term.int])
  exact ⟨captures, hcaptures, (hdeclarative.2.1 captures hcaptures "point").2⟩

end Pattern

end Reshape
