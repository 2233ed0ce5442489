import Reshape.Instantiation
import Reshape.Proofs.Library.Counting
import Reshape.Proofs.Pattern.Ends

/-!
# Numbers and texts as sequences

A number that is not negative becomes as many copies of an element, in two steps more than there are
copies; where these are not allowed, and for a negative number, all there is to come to is a limit
(`Rule.Copies`, `Library.repeated_copies`). A text becomes a sequence of as many placeholders as it has
characters, which is then counted (`Library.strLen_yields`). So encoding is exact
(`Library.encoding_exact`).
-/

namespace Reshape

/-- In new sessions the rule makes as many copies of the element as the number says, or reaches a limit:
there are copies if the number is not negative and the mode allows for the steps. There is an end if the
number is not negative, or if there is a budget. -/
structure Rule.Copies (decls : Declarations) (rule : Rule) (mode : Mode) (element : Term)
    (n : Int64) : Prop where
  eq_or_hitLimit : ∀ o s', rule.Ends decls (.int n) (.ofMode mode) o s' →
    o = .ok (.seq (List.replicate n.toInt.toNat element)) ∨ o.hitLimit = true
  ok_iff : (∃ s', rule.Ends decls (.int n) (.ofMode mode)
      (.ok (.seq (List.replicate n.toInt.toNat element))) s') ↔
    0 ≤ n ∧ 1 ≤ mode.maxDepth ∧ ∀ budget ∈ mode.budget?, n.toInt.toNat + 2 ≤ budget
  exists_ends : 0 ≤ n ∨ mode.budget? ≠ none →
    ∃ o s', rule.Ends decls (.int n) (.ofMode mode) o s'

namespace Library

variable {decls : Declarations}

theorem repeated_copies (decls : Declarations) (mode : Mode) (name : String) (element : Term)
    (n : Int64) : (repeated name element).Copies decls mode element n := by
  by_cases hn : 0 ≤ n
  · have hyields : (repeated name element).Yields decls (.int n)
        (.seq (List.replicate n.toInt.toNat element)) ⟨n.toInt.toNat + 2, 0⟩ := repeated_yields hn
    have hends := hyields.endsWithin rfl mode
    refine ⟨fun o s' => Rule.EndsAs.eq_or_hitLimit hends, ?_, fun _ => ?_⟩
    · rw [hends.ok_iff, and_iff_right hn]
      rfl
    · obtain ⟨o, s', hends, -⟩ := hends
      exact ⟨o, s', hends⟩
  · have hendless : (repeated name element).Endless decls
        fun term => ∃ made, term = copying element n made := repeated_endless (Int64.not_le.1 hn)
    have hstart : ∃ made, Term.int n = copying element n made := ⟨0, rfl⟩
    have hidle : (Session.ofMode mode).Idle := rfl
    have hlimit : ∀ o s', (repeated name element).Ends decls (.int n) (.ofMode mode) o s' →
        o.hitLimit = true := fun o s' => hendless.hitLimit hstart hidle rfl rfl
    refine ⟨fun o s' h => .inr (hlimit o s' h), ?_, fun hbudget => ?_⟩
    · refine iff_of_false ?_ fun h => hn h.1
      rintro ⟨s', hends⟩
      cases hlimit _ _ hends
    · obtain ⟨budget, hbudget⟩ := Option.ne_none_iff_exists'.1 (hbudget.resolve_left hn)
      obtain ⟨o, s', hends, -⟩ := hendless.exists_ends hstart rfl hbudget
      exact ⟨o, s', hends⟩

/-! ## Characters of a text -/

theorem strLen_step_start (decls : Declarations) (text : String) :
    strLen.step decls (.text text) =
      .note .armTried (.note .armTaken (.done (.again (.seq [.text text, .seq []])))) := rfl

/-- The first character of a text gives way to a placeholder. -/
theorem strLen_step (decls : Declarations) (c : Char) (chars : List Char) (items : List Term) :
    strLen.step decls (.seq [.text (.ofList (c :: chars)), .seq items]) =
      .note .armTried (.note .armTried (.note .armTaken (
        .done (.again (.seq [.text (.ofList chars), .seq (.unknown :: items)]))))) := by
  have hother : Pattern.captures? decls (.named "text" (.kind .text))
      (.seq [.text (.ofList (c :: chars)), .seq items]) = none := rfl
  rw [Rule.step, strLen, Arm.tryEach, hother]
  dsimp only
  rw [Arm.tryEach, Pattern.captures?, Pattern.extend?_pair, Pattern.extend?_firstChar]
  rfl

theorem strLen_step_last (decls : Declarations) (items : List Term) :
    strLen.step decls (.seq [.text "", .seq items]) =
      .note .armTried (.note .armTried (.note .armTried (.note .armTaken (
        .done (.done (.count items.length)))))) := rfl

/-- Each character is counted on top of the count so far. -/
theorem strLen_loop (decls : Declarations) (chars : List Char) (made : Nat) :
    strLen.Yields decls (.seq [.text (.ofList chars), .unary made]) (.count (chars.length + made))
      ⟨chars.length + 1, 0⟩ := by
  induction chars generalizing made with
  | nil =>
    refine .of_done 0 ?_
    rw [String.ofList_nil, Term.unary, strLen_step_last, List.length_replicate, List.length_nil,
      Nat.zero_add, Plan.yields_note, Plan.yields_note, Plan.yields_note, Plan.yields_note,
      Plan.yields_done]
    exact ⟨rfl, rfl⟩
  | cons c chars ih =>
    have hgoes : strLen.GoesOn decls (.seq [.text (.ofList (c :: chars)), .unary made])
        (.seq [.text (.ofList chars), .unary (made + 1)]) := by
      refine ⟨?_, rfl⟩
      rw [Term.unary, strLen_step, Plan.yields_note, Plan.yields_note, Plan.yields_note,
        Plan.yields_done]
      exact ⟨rfl, rfl⟩
    rw [List.length_cons, Nat.add_right_comm, Nat.add_assoc]
    exact hgoes.settles (ih (made + 1))

theorem strLen_yields (decls : Declarations) (text : String) :
    strLen.Yields decls (.text text) (.count text.length) ⟨text.length + 2, 0⟩ := by
  have hgoes : strLen.GoesOn decls (.text text) (.seq [.text text, .unary 0]) := by
    refine ⟨?_, rfl⟩
    rw [strLen_step_start, Plan.yields_note, Plan.yields_note, Plan.yields_done]
    exact ⟨rfl, rfl⟩
  have hcounts := strLen_loop decls text.toList 0
  rw [String.ofList_toList, String.length_toList, Nat.add_zero] at hcounts
  exact hgoes.settles hcounts

/-- A number becomes copies of any element, and of a placeholder, exactly as many as it says, or a limit
is reached, as it always is if the number is negative. A text becomes the number of its characters, the
one that is its length in a template. Both take one frame and two steps more than there are copies or
characters, under any declarations and in any mode. -/
theorem encoding_exact (decls : Declarations) (mode : Mode) :
    (∀ element n, (buildArray element).Copies decls mode element n) ∧
    (∀ n, toUnary.Copies decls mode .unknown n) ∧
    ∀ text, strLen.EndsWithin decls mode (.text text) (.count text.length) ⟨text.length + 2, 1⟩ ∧
      ∀ captures, (Template.length (.literal (.text text))).instantiate decls captures =
        .ok (.count text.length) :=
  ⟨repeated_copies decls mode "build_array", repeated_copies decls mode "to_unary" .unknown,
    fun text => ⟨(strLen_yields decls text).endsWithin rfl mode, fun _ => Template.instantiate_of_build rfl⟩⟩

end Library

end Reshape
