import Reshape.Captures
import Reshape.Proofs.Term.Normal

/-!
# Binding pairs one after another

A name that is bound again is compared with the first term that was bound to it. So it seems to matter
in which order pairs of a name and a term are bound. It does not: binding them succeeds exactly if
any two terms of one name are equal (`Captures.bindAll_eq_some_iff`), and in any other order the same
names are bound to terms that are equal (`Captures.bindAll_reordered`).
-/

namespace Reshape

/-- No name stands with two terms that are not equal. -/
def Consistent (pairs : List (String × Term)) : Prop :=
  ∀ name a b, (name, a) ∈ pairs → (name, b) ∈ pairs → (a == b) = true

namespace Captures

/-- The same names are bound, to terms that are equal. -/
def Agrees (captures captures' : Captures) : Prop :=
  ∀ name, Option.Rel (fun a b => (a == b) = true) (captures.get? name) (captures'.get? name)

/-- Binds names to terms, pair by pair. -/
def bindAll (pairs : List (String × Term)) (captures : Captures) : Option Captures :=
  pairs.foldlM (fun captures (name, term) => captures.bind? name term) captures

variable {pairs more : List (String × Term)} {captures extended : Captures} {name : String}
  {term : Term}

theorem bindAll_cons (name : String) (term : Term) (pairs : List (String × Term))
    (captures : Captures) :
    bindAll ((name, term) :: pairs) captures =
      (captures.bind? name term).bind (bindAll pairs) := rfl

theorem bindAll_append (pairs more : List (String × Term)) (captures : Captures) :
    bindAll (pairs ++ more) captures = (bindAll pairs captures).bind (bindAll more) :=
  List.foldlM_append

/-- What was bound before stays, and another name is bound to its first term. -/
theorem get?_bindAll (h : bindAll pairs captures = some extended) (name : String) :
    extended.get? name = (captures.get? name).or (pairs.lookup name) := by
  induction pairs generalizing captures with
  | nil =>
    cases h
    rw [List.lookup_nil, Option.or_none]
  | cons pair pairs ih =>
    obtain ⟨other, term⟩ := pair
    obtain ⟨bound, hbind, hrest⟩ := Option.bind_eq_some_iff.1 h
    rw [ih hrest, List.lookup_cons]
    rcases bind?_cases hbind with ⟨old, hold, -, rfl⟩ | ⟨hnone, hbound⟩
    · by_cases hname : name = other
      · subst hname
        rw [hold, Option.some_or, Option.some_or]
      · rw [beq_false_of_ne hname]
    · rw [hbound]
      by_cases hname : name = other
      · subst hname
        rw [if_pos rfl, hnone, beq_self_eq_true, Option.some_or, Option.none_or]
      · rw [if_neg (Ne.symm hname), beq_false_of_ne hname]

/-- What is bound was bound before or stands in the pairs. -/
theorem get?_or_mem_of_bindAll (h : bindAll pairs captures = some extended)
    (hget : extended.get? name = some term) :
    captures.get? name = some term ∨ (name, term) ∈ pairs := by
  rw [get?_bindAll h, Option.or_eq_some_iff] at hget
  refine hget.imp_right fun hlookup => ?_
  obtain ⟨before, after, rfl, -⟩ := List.lookup_eq_some_iff.1 hlookup.2
  exact List.mem_append_right before List.mem_cons_self

/-- Nothing is bound but what stands in the pairs. -/
theorem mem_of_get?_bindAll (h : bindAll pairs ∅ = some extended)
    (hget : extended.get? name = some term) : (name, term) ∈ pairs :=
  (get?_or_mem_of_bindAll h hget).resolve_left nofun

/-- Each name is bound to each of its terms or to one that is equal. -/
theorem exists_of_bindAll (h : bindAll pairs captures = some extended) (hmem : (name, term) ∈ pairs) :
    ∃ bound, extended.get? name = some bound ∧ (bound = term ∨ (bound == term) = true) := by
  induction pairs generalizing captures with
  | nil => cases hmem
  | cons pair pairs ih =>
    obtain ⟨bound, hbind, hrest⟩ := Option.bind_eq_some_iff.1 h
    rcases List.mem_cons.1 hmem with rfl | hmem
    · obtain ⟨stored, hstored, hequal⟩ := exists_of_bind? hbind
      refine ⟨stored, ?_, hequal⟩
      rw [get?_bindAll hrest, hstored, Option.some_or]
    · exact ih hrest hmem

/-- Pairs that are consistent with each other and with what is bound are bound. -/
theorem exists_bindAll (hpairs : Consistent pairs)
    (hbound : ∀ name term bound, (name, term) ∈ pairs → captures.get? name = some bound →
      (bound == term) = true) : ∃ extended, bindAll pairs captures = some extended := by
  induction pairs generalizing captures with
  | nil => exact ⟨captures, rfl⟩
  | cons pair pairs ih =>
    obtain ⟨name, term⟩ := pair
    have hrest : Consistent pairs := fun other a b ha hb =>
      hpairs other a b (List.mem_cons_of_mem _ ha) (List.mem_cons_of_mem _ hb)
    rw [bindAll_cons, bind?]
    cases hget : captures.get? name with
    | some bound =>
      dsimp only
      rw [if_pos (hbound name term bound List.mem_cons_self hget)]
      exact ih hrest fun other a b ha => hbound other a b (List.mem_cons_of_mem _ ha)
    | none =>
      refine ih hrest fun other a b ha hb => ?_
      rw [get?_set] at hb
      split at hb
      · rename_i heq
        cases hb
        subst heq
        exact hpairs name term a List.mem_cons_self (List.mem_cons_of_mem _ ha)
      · exact hbound other a b (List.mem_cons_of_mem _ ha) hb

section

variable (hpairs : ∀ pair ∈ pairs, pair.2.WellKeyed)

include hpairs

/-- Where terms have distinct keys, each name is bound to a term that is equal to all of its terms. -/
theorem exists_equal_of_bindAll (h : bindAll pairs ∅ = some extended) (hmem : (name, term) ∈ pairs) :
    ∃ bound, extended.get? name = some bound ∧ (bound == term) = true := by
  obtain ⟨bound, hget, rfl | hequal⟩ := exists_of_bindAll h hmem
  · exact ⟨bound, hget, (Term.beq_iff (hpairs _ hmem) (hpairs _ hmem)).2 rfl⟩
  · exact ⟨bound, hget, hequal⟩

/-- Pairs are bound exactly if any two terms of one name are equal. -/
theorem bindAll_eq_some_iff : (∃ extended, bindAll pairs ∅ = some extended) ↔ Consistent pairs := by
  constructor
  · rintro ⟨extended, h⟩ name a b ha hb
    obtain ⟨bound, hget, hequal⟩ := exists_equal_of_bindAll hpairs h ha
    obtain ⟨_, hget', hequal'⟩ := exists_equal_of_bindAll hpairs h hb
    cases hget.symm.trans hget'
    have hbound := hpairs _ (mem_of_get?_bindAll h hget)
    -- equality is transitive, as it is equality of normal forms
    refine (Term.beq_iff (hpairs _ ha) (hpairs _ hb)).2 ?_
    exact ((Term.beq_iff hbound (hpairs _ ha)).1 hequal).symm.trans
      ((Term.beq_iff hbound (hpairs _ hb)).1 hequal')
  · intro h
    exact exists_bindAll h fun _ _ _ _ hget => nomatch hget

/-- In another order, and with repetitions or without, the same pairs are bound or not, and what is
bound in the end is equal. -/
theorem bindAll_reordered (hmem : ∀ pair, pair ∈ more ↔ pair ∈ pairs) :
    Option.Rel Agrees (bindAll more ∅) (bindAll pairs ∅) := by
  have hmore : ∀ pair ∈ more, pair.2.WellKeyed := fun pair h => hpairs pair ((hmem pair).1 h)
  have hconsistent : Consistent more ↔ Consistent pairs := by
    simp only [Consistent, hmem]
  cases hfirst : bindAll more ∅ with
  | none =>
    cases hsecond : bindAll pairs ∅ with
    | none => exact .none
    | some extended =>
      have hpassed := hconsistent.2 ((bindAll_eq_some_iff hpairs).1 ⟨extended, hsecond⟩)
      obtain ⟨other, hother⟩ := (bindAll_eq_some_iff hmore).2 hpassed
      cases hfirst.symm.trans hother
  | some other =>
    have hpassed := (bindAll_eq_some_iff hmore).1 ⟨other, hfirst⟩
    obtain ⟨extended, hsecond⟩ := (bindAll_eq_some_iff hpairs).2 (hconsistent.1 hpassed)
    rw [hsecond]
    refine .some fun name => ?_
    cases hget : other.get? name with
    | some a =>
      have ha := mem_of_get?_bindAll hfirst hget
      obtain ⟨b, hget', -⟩ := exists_of_bindAll hsecond ((hmem _).1 ha)
      rw [hget']
      exact .some (hpassed name a b ha ((hmem _).2 (mem_of_get?_bindAll hsecond hget')))
    | none =>
      cases hget' : extended.get? name with
      | none => exact .none
      | some b =>
        have hb := (hmem _).2 (mem_of_get?_bindAll hsecond hget')
        obtain ⟨a, ha, -⟩ := exists_of_bindAll hfirst hb
        cases hget.symm.trans ha

end

end Captures

end Reshape
