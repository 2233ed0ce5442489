import Reshape.Library.Naturals
import Reshape.Proofs.Declarations.Counts
import Reshape.Proofs.Reduction.Loops

/-!
# Counting up

A number is counted up to by making a sequence longer until its length is the number. That takes a step
for each element, one to start with and one to see that the number is reached. A negative number is
never reached (`Library.repeated_endless`).

Two numbers are compared by counting up until the length is one of them (`Library.greaterThan_yields`).
The second is looked at first. So if it is negative the first is reached, and if the first is negative
the second is, which decides as if the numbers had no signs (`Library.greaterThan_ignores_sign`). For
numbers with one sign the comparison is right, or there is no end to it
(`Library.greaterThan_decides`).
-/

namespace Reshape.Library

variable {decls : Declarations}

/-! ## Repeating an element -/

section

variable {name : String} {element : Term} {n : Int64}

/-- The number, and then the number with the copies made so far. -/
def copying (element : Term) (n : Int64) : Nat → Term
  | 0 => .int n
  | made + 1 => .seq [.int n, .seq (List.replicate made element)]

theorem repeated_step_start (decls : Declarations) (name : String) (element : Term) (n : Int64) :
    (repeated name element).step decls (.int n) =
      .note .armTried (.note .armTaken (.done (.again (.seq [.int n, .seq []])))) := rfl

theorem repeated_step (decls : Declarations) (name : String) (element : Term) (n : Int64)
    (items : List Term) :
    (repeated name element).step decls (.seq [.int n, .seq items]) =
      .note .armTried (.note .armTried (
        if decls.equivalent (.count items.length) (.int n) then
          .note .armTaken (.done (.done (.seq items)))
        else .note .armTried (.note .armTaken (
          .done (.again (.seq [.int n, .seq (items ++ [element])])))))) := rfl

theorem repeated_goesOn_start :
    (repeated name element).GoesOn decls (copying element n 0) (copying element n 1) := by
  refine ⟨?_, rfl⟩
  rw [copying, repeated_step_start, Plan.yields_note, Plan.yields_note, Plan.yields_done]
  exact ⟨rfl, rfl⟩

theorem repeated_goesOn {made : Nat} (h : decls.equivalent (.count made) (.int n) = false) :
    (repeated name element).GoesOn decls (copying element n (made + 1))
      (copying element n (made + 2)) := by
  refine ⟨?_, rfl⟩
  rw [copying, copying, repeated_step, List.length_replicate, h, if_neg Bool.false_ne_true,
    Plan.yields_note, Plan.yields_note, Plan.yields_note, Plan.yields_note, Plan.yields_done,
    List.replicate_succ']
  exact ⟨rfl, rfl⟩

theorem repeated_yields (hn : 0 ≤ n) :
    (repeated name element).Yields decls (.int n) (.seq (List.replicate n.toInt.toNat element))
      ⟨n.toInt.toNat + 2, 0⟩ := by
  have hpos : 0 ≤ n.toInt := Int64.le_iff_toInt_le.1 hn
  have hless := n.toInt_lt
  have hreached : (repeated name element).Yields decls
      (copying element n (n.toInt.toNat + 1)) (.seq (List.replicate n.toInt.toNat element)) ⟨1, 0⟩ := by
    have hcount : decls.equivalent (.count n.toInt.toNat) (.int n) = true := by
      rw [decls.equivalent_count_int (by omega), decide_eq_true_eq]
      omega
    refine .of_done 0 ?_
    rw [copying, repeated_step, List.length_replicate, hcount, if_pos rfl, Plan.yields_note,
      Plan.yields_note, Plan.yields_note, Plan.yields_done]
    exact ⟨rfl, rfl⟩
  refine Rule.yields_of_counting repeated_goesOn_start (fun made hmade => repeated_goesOn ?_) hreached
  rw [decls.equivalent_count_int (by omega), decide_eq_false_iff_not]
  omega

/-- Copies of an element are never as many as a negative number says. -/
theorem repeated_endless (hn : n < 0) :
    (repeated name element).Endless decls fun term => ∃ made, term = copying element n made := by
  rintro _ ⟨made, rfl⟩
  refine ⟨copying element n (made + 1), ?_, made + 1, rfl⟩
  cases made with
  | zero => exact repeated_goesOn_start
  | succ made => exact repeated_goesOn (decls.equivalent_count_negative made hn)

end

/-! ## Comparing -/

section

variable {a b : Int64}

/-- The numbers, and then the numbers with the count so far. -/
def comparing (a b : Int64) : Nat → Term
  | 0 => .seq [.int a, .int b]
  | count + 1 => .seq [.int a, .int b, .unary count]

theorem greaterThan_step_start (decls : Declarations) (a b : Int64) :
    greaterThan.step decls (.seq [.int a, .int b]) =
      .note .armTried (.note .armTaken (.done (.again (.seq [.int a, .int b, .seq []])))) := rfl

theorem greaterThan_step (decls : Declarations) (a b : Int64) (items : List Term) :
    greaterThan.step decls (.seq [.int a, .int b, .seq items]) =
      .note .armTried (.note .armTried (
        if decls.equivalent (.int a) (.int b) then .note .armTaken (.done (.done (.bool false)))
        else .note .armTried (
          if decls.equivalent (.count items.length) (.int b) then
            .note .armTaken (.done (.done (.bool true)))
          else .note .armTried (
            if decls.equivalent (.count items.length) (.int a) then
              .note .armTaken (.done (.done (.bool false)))
            else .note .armTried (.note .armTaken (
              .done (.again (.seq [.int a, .int b, .seq (.unknown :: items)])))))))) := rfl

theorem greaterThan_goesOn_start : greaterThan.GoesOn decls (comparing a b 0) (comparing a b 1) := by
  refine ⟨?_, rfl⟩
  rw [comparing, greaterThan_step_start, Plan.yields_note, Plan.yields_note, Plan.yields_done]
  exact ⟨rfl, rfl⟩

/-- Where the count is none of two different numbers it goes on. -/
theorem greaterThan_goesOn {count : Nat} (hab : a ≠ b)
    (ha : decls.equivalent (.count count) (.int a) = false)
    (hb : decls.equivalent (.count count) (.int b) = false) :
    greaterThan.GoesOn decls (comparing a b (count + 1)) (comparing a b (count + 2)) := by
  refine ⟨?_, rfl⟩
  rw [comparing, comparing, Term.unary, greaterThan_step, List.length_replicate, ha, hb,
    decls.equivalent_int, decide_eq_false hab, if_neg Bool.false_ne_true, if_neg Bool.false_ne_true,
    if_neg Bool.false_ne_true, Plan.yields_note, Plan.yields_note, Plan.yields_note, Plan.yields_note,
    Plan.yields_note, Plan.yields_note, Plan.yields_done]
  exact ⟨rfl, rfl⟩

theorem greaterThan_yields_equal (decls : Declarations) (a : Int64) :
    greaterThan.Yields decls (.seq [.int a, .int a]) (.bool false) ⟨2, 0⟩ := by
  have hequal : greaterThan.Yields decls (comparing a a 1) (.bool false) ⟨1, 0⟩ := by
    refine .of_done 0 ?_
    rw [comparing, Term.unary, greaterThan_step, decls.equivalent_int, decide_eq_true rfl, if_pos rfl,
      Plan.yields_note, Plan.yields_note, Plan.yields_note, Plan.yields_done]
    exact ⟨rfl, rfl⟩
  exact greaterThan_goesOn_start.settles hequal

/-- The first count that is one of two different numbers decides, and the second is looked at
first. -/
theorem greaterThan_yields_of_reached {count : Nat} (hab : a ≠ b) (hcount : count < 2 ^ 63)
    (hbefore : ∀ k < count, (k : Int) ≠ a.toInt ∧ (k : Int) ≠ b.toInt)
    (hreached : (count : Int) = a.toInt ∨ (count : Int) = b.toInt) :
    greaterThan.Yields decls (.seq [.int a, .int b]) (.bool (decide ((count : Int) = b.toInt)))
      ⟨count + 2, 0⟩ := by
  have hlast : greaterThan.Yields decls (comparing a b (count + 1))
      (.bool (decide ((count : Int) = b.toInt))) ⟨1, 0⟩ := by
    refine .of_done 0 ?_
    rw [comparing, Term.unary, greaterThan_step, List.length_replicate, decls.equivalent_int,
      decide_eq_false hab, if_neg Bool.false_ne_true, decls.equivalent_count_int hcount,
      decls.equivalent_count_int hcount, Plan.yields_note, Plan.yields_note]
    by_cases hb : (count : Int) = b.toInt
    · rw [decide_eq_true hb, if_pos rfl, Plan.yields_note, Plan.yields_note, Plan.yields_done]
      exact ⟨rfl, rfl⟩
    · rw [decide_eq_false hb, decide_eq_true (hreached.resolve_right hb), if_neg Bool.false_ne_true,
        if_pos rfl, Plan.yields_note, Plan.yields_note, Plan.yields_note, Plan.yields_done]
      exact ⟨rfl, rfl⟩
  refine Rule.yields_of_counting greaterThan_goesOn_start (fun k hk => ?_) hlast
  obtain ⟨hka, hkb⟩ := hbefore k hk
  exact greaterThan_goesOn hab
    ((decls.equivalent_count_int (by omega) a).trans (decide_eq_false hka))
    ((decls.equivalent_count_int (by omega) b).trans (decide_eq_false hkb))

/-- A number that is not negative is itself without the sign, and a negative one is past all of
those. -/
theorem toInt_eq_unsigned (a : Int64) :
    a.toInt = if a.toUInt64.toNat < 2 ^ 63 then (a.toUInt64.toNat : Int)
      else a.toUInt64.toNat - 2 ^ 64 := by
  have hbits := a.toBitVec.toInt_eq_toNat_cond
  rw [Int64.toNat_toBitVec, Int64.toInt_toBitVec] at hbits
  rw [hbits]
  split <;> split <;> omega

theorem nonneg_iff_unsigned_lt (a : Int64) : 0 ≤ a ↔ a.toUInt64.toNat < 2 ^ 63 := by
  have hless := a.toUInt64.toNat_lt
  rw [Int64.le_iff_toInt_le, Int64.toInt_zero, toInt_eq_unsigned]
  split <;> omega

theorem lt_iff_unsigned_lt (ha : 0 ≤ a) (hb : 0 ≤ b) : b < a ↔ b.toUInt64 < a.toUInt64 := by
  rw [Int64.lt_iff_toInt_lt, UInt64.lt_iff_toNat_lt, toInt_eq_unsigned a, toInt_eq_unsigned b,
    if_pos ((nonneg_iff_unsigned_lt a).1 ha), if_pos ((nonneg_iff_unsigned_lt b).1 hb), Int.ofNat_lt]

/-- Different numbers that are not both negative are compared as if they had no signs. -/
theorem greaterThan_yields (decls : Declarations) (hab : a ≠ b) (hreached : 0 ≤ a ∨ 0 ≤ b) :
    greaterThan.Yields decls (.seq [.int a, .int b]) (.bool (decide (b.toUInt64 < a.toUInt64)))
      ⟨min a.toUInt64.toNat b.toUInt64.toNat + 2, 0⟩ := by
  have ha := toInt_eq_unsigned a
  have hb := toInt_eq_unsigned b
  have hlessa := a.toUInt64.toNat_lt
  have hlessb := b.toUInt64.toNat_lt
  have hother : a.toUInt64.toNat ≠ b.toUInt64.toNat := fun h =>
    hab (congrArg UInt64.toInt64 (UInt64.toNat_inj.1 h))
  rw [nonneg_iff_unsigned_lt, nonneg_iff_unsigned_lt] at hreached
  obtain ⟨count, hcount⟩ : ∃ count, count = min a.toUInt64.toNat b.toUInt64.toNat := ⟨_, rfl⟩
  have hdecides : decide (b.toUInt64 < a.toUInt64) = decide ((count : Int) = b.toInt) := by
    rw [decide_eq_decide, UInt64.lt_iff_toNat_lt]
    omega
  rw [hdecides, ← hcount]
  refine greaterThan_yields_of_reached hab ?_ ?_ ?_ <;> omega

/-- Two different negative numbers are never reached. -/
theorem greaterThan_endless (decls : Declarations) (hab : a ≠ b) (ha : a < 0) (hb : b < 0) :
    greaterThan.Endless decls fun term => ∃ k, term = comparing a b k := by
  rintro _ ⟨k, rfl⟩
  refine ⟨comparing a b (k + 1), ?_, k + 1, rfl⟩
  cases k with
  | zero => exact greaterThan_goesOn_start
  | succ count =>
    exact greaterThan_goesOn hab (decls.equivalent_count_negative count ha)
      (decls.equivalent_count_negative count hb)

/-- Two numbers that are not negative are compared, and so are equal ones. -/
theorem greaterThan_endsAs (decls : Declarations) (mode : Mode) (hsigns : 0 ≤ a ↔ 0 ≤ b)
    (hreached : a = b ∨ 0 ≤ a) :
    greaterThan.EndsAs decls mode (.seq [.int a, .int b]) (.ok (.bool (decide (b < a))))
      ⟨if a = b then 2 else min a.toUInt64.toNat b.toUInt64.toNat + 2, 1⟩ := by
  by_cases hab : a = b
  · subst hab
    rw [decide_eq_false Int64.lt_irrefl, if_pos rfl]
    exact (greaterThan_yields_equal decls a).enters.endsAs rfl rfl mode
  · have ha := hreached.resolve_left hab
    rw [decide_eq_decide.2 (lt_iff_unsigned_lt ha (hsigns.1 ha)), if_neg hab]
    exact (greaterThan_yields decls hab (.inl ha)).enters.endsAs rfl rfl mode

/-- Two numbers with one sign are never compared wrongly: whatever the reduction comes to, in any
mode, is whether the first is greater, or a limit that it reaches. It does come to an end if there is
a budget, if the numbers are equal, or if they are not negative. If they are negative and different, it
is by a limit. -/
theorem greaterThan_decides (decls : Declarations) (mode : Mode) (a b : Int64)
    (hsigns : 0 ≤ a ↔ 0 ≤ b) :
    (∀ o s', greaterThan.Ends decls (.seq [.int a, .int b]) (.ofMode mode) o s' →
      o = .ok (.bool (decide (b < a))) ∨ o.hitLimit = true) ∧
    (mode.budget? ≠ none ∨ a = b ∨ 0 ≤ a →
      ∃ o s', greaterThan.Ends decls (.seq [.int a, .int b]) (.ofMode mode) o s') ∧
    (a ≠ b → a < 0 → ∀ o s', greaterThan.Ends decls (.seq [.int a, .int b]) (.ofMode mode) o s' →
      o.hitLimit = true) := by
  by_cases hreached : a = b ∨ 0 ≤ a
  · have hends := greaterThan_endsAs decls mode hsigns hreached
    refine ⟨fun o s' => hends.eq_or_hitLimit, fun _ => ?_, fun hab ha => ?_⟩
    · obtain ⟨o, s', hends, -⟩ := hends
      exact ⟨o, s', hends⟩
    · exact absurd (hreached.resolve_left hab) (Int64.not_le.2 ha)
  · obtain ⟨hab, ha⟩ := not_or.1 hreached
    have hendless := greaterThan_endless decls hab (Int64.not_le.1 ha)
      (Int64.not_le.1 (mt hsigns.2 ha))
    have hstart : ∃ k, Term.seq [.int a, .int b] = comparing a b k := ⟨0, rfl⟩
    have hlimit : ∀ o s', greaterThan.Ends decls (.seq [.int a, .int b]) (.ofMode mode) o s' →
        o.hitLimit = true := fun o s' h => by
      have hidle : (Session.ofMode mode).Idle := rfl
      exact hendless.hitLimit hstart hidle rfl rfl h
    refine ⟨fun o s' h => .inr (hlimit o s' h), fun hbudget => ?_, fun _ _ => hlimit⟩
    obtain ⟨budget, hbudget⟩ := Option.ne_none_iff_exists'.1 (hbudget.resolve_right hreached)
    obtain ⟨o, s', hends, -⟩ := hendless.exists_ends hstart rfl hbudget
    exact ⟨o, s', hends⟩

theorem greaterThan_of_negatives :
    ∃ o s', greaterThan.Ends ∅ (.seq [.int (-1), .int (-2)]) (.ofMode (.custom 1 (some 9))) o s' ∧
      o.hitLimit = true := by
  obtain ⟨-, hends, hlimit⟩ := greaterThan_decides ∅ (.custom 1 (some 9)) (-1) (-2) (by decide)
  obtain ⟨o, s', hends⟩ := hends (.inl nofun)
  exact ⟨o, s', hends, hlimit (by decide) (by decide) o s' hends⟩

/-- If only the second number is negative, the first is reached, and taken for the smaller one. -/
theorem greaterThan_ignores_sign :
    ∃ o s', greaterThan.Ends ∅ (.seq [.int 0, .int (-1)]) (.ofMode .host) o s' ∧
      ¬ (o = .ok (.bool (decide ((-1 : Int64) < 0))) ∨ o.hitLimit = true) := by
  have hyields := greaterThan_yields ∅ (a := 0) (b := -1) (by decide) (.inl (by decide))
  obtain ⟨o, s', hends, -, hiff⟩ := hyields.enters.endsAs rfl rfl .host
  refine ⟨o, s', hends, ?_⟩
  rw [hiff.2 (by decide)]
  rintro (htrue | hlimit)
  · cases htrue
  · cases hlimit

end

end Reshape.Library
