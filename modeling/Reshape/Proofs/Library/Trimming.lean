import Mathlib.Data.List.DropRight
import Reshape.Library.Texts
import Reshape.Proofs.Pattern.Ends
import Reshape.Proofs.Reduction.Conclusion

/-!
# Trimming

Some rules take a piece off a text with every step, until there is none to take off (`Rule.Peels`). If
it is known what comes off and how often, it is known what such a rule yields and in how many steps
(`Rule.Peels.yields`). At the ends, blanks come off one by one (`Library.peeled_start`,
`Library.peeled_end`) and copies of a literal one by one (`Library.peeled_copies`). What is left has
nothing at that end that would come off (`Library.trimming_maximal`).
-/

namespace Reshape

/-! ## Peeling -/

/-- `result` is what is left of the text after something has come off so many times, when nothing comes
off any more. -/
inductive Peeled (rest? : String → Option String) : Nat → String → String → Prop where
  | done {text : String} : rest? text = none → Peeled rest? 0 text text
  | again {times : Nat} {text rest result : String} :
      rest? text = some rest → Peeled rest? times rest result → Peeled rest? (times + 1) text result

/-- A step of the rule takes off what comes off, and what is left is shorter; if nothing comes off the
rule is done. -/
structure Rule.Peels (decls : Declarations) (rule : Rule) (rest? : String → Option String) : Prop where
  step (text : String) : rule.step decls (.text text) = .note .armTried (match rest? text with
    | some rest => .note .armTaken (.done (.again (.text rest)))
    | none => .done (.done (.text text)))
  shorter {text rest : String} : rest? text = some rest → rest.length < text.length

/-- Every time takes a step, and one more sees that nothing comes off. -/
theorem Rule.Peels.yields {decls : Declarations} {rule : Rule} {rest? : String → Option String}
    (h : rule.Peels decls rest?) {times : Nat} {text result : String}
    (hpeeled : Peeled rest? times text result) :
    rule.Yields decls (.text text) (.text result) ⟨times + 1, 0⟩ := by
  induction hpeeled with
  | @done text hnone =>
    refine .of_done 0 ?_
    rw [h.step, hnone, Plan.yields_note, Plan.yields_done]
    exact ⟨rfl, rfl⟩
  | @again times text rest result hsome _ ih =>
    have hsmaller : (Term.text rest).size < (Term.text text).size := by
      have hshorter := h.shorter hsome
      rw [Term.size, Term.size]
      omega
    refine .of_again ?_ (Rule.admitFeedback_of_size_lt hsmaller) ih
    rw [h.step, hsome, Plan.yields_note, Plan.yields_note, Plan.yields_done]
    exact ⟨rfl, rfl⟩

/-! ## Literals at the ends -/

namespace Text

variable {literal text rest : String}

theorem length_lt_of_afterStart? (hliteral : literal ≠ "") (h : afterStart? literal text = some rest) :
    rest.length < text.length := by
  have hpos : 0 < literal.length := Nat.pos_of_ne_zero (mt String.length_eq_zero_iff.1 hliteral)
  rw [← afterStart?_eq_some_iff.1 h, String.length_append]
  omega

theorem length_lt_of_beforeEnd? (hliteral : literal ≠ "") (h : beforeEnd? literal text = some rest) :
    rest.length < text.length := by
  have hpos : 0 < literal.length := Nat.pos_of_ne_zero (mt String.length_eq_zero_iff.1 hliteral)
  rw [← beforeEnd?_eq_some_iff.1 h, String.length_append]
  omega

theorem beforeEnd?_eq_none_iff :
    beforeEnd? literal text = none ↔ ¬ literal.toList <:+ text.toList := by
  rw [Option.eq_none_iff_forall_ne_some]
  refine ⟨fun h ⟨before, hbefore⟩ => h (.ofList before) ?_, fun h before hbefore => h ?_⟩
  · rw [beforeEnd?_eq_some_iff, ← String.toList_inj, String.toList_append, String.toList_ofList,
      hbefore]
  · rw [← beforeEnd?_eq_some_iff.1 hbefore, String.toList_append]
    exact List.suffix_append _ _

end Text

namespace Library

/-! ## Blanks -/

/-- A character that trimming takes off. -/
def isBlank (c : Char) : Bool := c = ' ' || c = '\n' || c = '\t'

theorem blanks_ne_empty : ∀ blank ∈ blanks, blank ≠ "" := by decide

/-- What is looked for is one of three characters. -/
theorem findSome?_blanks {find? : String → Option String} {c : Char} {rest : String}
    (h : ∀ b, find? (.singleton b) = if b = c then some rest else none) :
    blanks.findSome? find? = if isBlank c then some rest else none := by
  have hblanks : blanks = [.singleton ' ', .singleton '\n', .singleton '\t'] := rfl
  rw [hblanks]
  simp only [List.findSome?_cons, List.findSome?_nil, h, isBlank]
  by_cases hspace : c = ' '
  · simp [hspace]
  by_cases hline : c = '\n'
  · simp [hline]
  by_cases htab : c = '\t' <;> simp [Ne.symm, hspace, hline, htab]

theorem findSome?_afterStart?_cons (c : Char) (chars : List Char) :
    blanks.findSome? (Text.afterStart? · (.ofList (c :: chars))) =
      if isBlank c then some (.ofList chars) else none := by
  refine findSome?_blanks fun b => ?_
  split
  · next hsame =>
    rw [Text.afterStart?_eq_some_iff, hsame]
    simp
  · next hother =>
    rw [Option.eq_none_iff_forall_ne_some]
    intro rest hrest
    have happend := congrArg String.toList (Text.afterStart?_eq_some_iff.1 hrest)
    rw [String.toList_append, String.toList_singleton, String.toList_ofList] at happend
    exact hother (List.cons.inj happend).1

theorem findSome?_beforeEnd?_concat (chars : List Char) (c : Char) :
    blanks.findSome? (Text.beforeEnd? · (.ofList (chars ++ [c]))) =
      if isBlank c then some (.ofList chars) else none := by
  refine findSome?_blanks fun b => ?_
  split
  · next hsame =>
    rw [Text.beforeEnd?_eq_some_iff, hsame]
    simp
  · next hother =>
    rw [Option.eq_none_iff_forall_ne_some]
    intro rest hrest
    have happend := congrArg String.toList (Text.beforeEnd?_eq_some_iff.1 hrest)
    rw [String.toList_append, String.toList_singleton, String.toList_ofList] at happend
    exact hother (List.singleton_inj.1 (List.append_inj' happend rfl).2)

theorem peeled_start (chars : List Char) :
    Peeled (fun text => blanks.findSome? (Text.afterStart? · text)) (chars.takeWhile isBlank).length
      (.ofList chars) (.ofList (chars.dropWhile isBlank)) := by
  induction chars with
  | nil => exact .done rfl
  | cons c chars ih =>
    have hfirst := findSome?_afterStart?_cons c chars
    cases hblank : isBlank c with
    | true =>
      rw [hblank, if_pos rfl] at hfirst
      rw [List.takeWhile_cons_of_pos hblank, List.dropWhile_cons_of_pos hblank]
      exact .again hfirst ih
    | false =>
      rw [hblank, if_neg Bool.false_ne_true] at hfirst
      rw [List.takeWhile_cons_of_neg (by simp [hblank]), List.dropWhile_cons_of_neg (by simp [hblank])]
      exact .done hfirst

theorem peeled_end (chars : List Char) :
    Peeled (fun text => blanks.findSome? (Text.beforeEnd? · text)) (chars.rtakeWhile isBlank).length
      (.ofList chars) (.ofList (chars.rdropWhile isBlank)) := by
  induction chars using List.reverseRecOn with
  | nil => exact .done rfl
  | append_singleton chars c ih =>
    have hlast := findSome?_beforeEnd?_concat chars c
    cases hblank : isBlank c with
    | true =>
      rw [hblank, if_pos rfl] at hlast
      rw [List.rtakeWhile_concat_pos _ _ _ hblank, List.rdropWhile_concat_pos _ _ _ hblank,
        List.length_append]
      exact .again hlast ih
    | false =>
      rw [hblank, if_neg Bool.false_ne_true] at hlast
      rw [List.rtakeWhile_concat_neg _ _ _ (by simp [hblank]),
        List.rdropWhile_concat_neg _ _ _ (by simp [hblank])]
      exact .done hlast

theorem trimLeft_peels (decls : Declarations) :
    trimLeft.Peels decls fun text => blanks.findSome? (Text.afterStart? · text) := by
  refine ⟨fun text => ?_, fun {text rest} h => ?_⟩
  · rw [Rule.step, trimLeft, Arm.tryEach, Pattern.captures?_startingWith]
    cases blanks.findSome? (Text.afterStart? · text) <;> rfl
  · obtain ⟨blank, hmem, hrest⟩ := List.exists_of_findSome?_eq_some h
    exact Text.length_lt_of_afterStart? (blanks_ne_empty blank hmem) hrest

theorem trimRight_peels (decls : Declarations) :
    trimRight.Peels decls fun text => blanks.findSome? (Text.beforeEnd? · text) := by
  refine ⟨fun text => ?_, fun {text rest} h => ?_⟩
  · rw [Rule.step, trimRight, Arm.tryEach, Pattern.captures?_endingWith]
    cases blanks.findSome? (Text.beforeEnd? · text) <;> rfl
  · obtain ⟨blank, hmem, hrest⟩ := List.exists_of_findSome?_eq_some h
    exact Text.length_lt_of_beforeEnd? (blanks_ne_empty blank hmem) hrest

theorem trim_step (decls : Declarations) (text : String) :
    trim.step decls (.text text) = .note .armTried (.note .armTaken
      (.ask (.call trimLeft (.text text)) fun left => .ask (.call trimRight left) fun trimmed =>
        .done (.done trimmed))) := rfl

/-- Both ends are trimmed in a frame on top, first the start. -/
theorem trim_yields (decls : Declarations) (chars : List Char) :
    trim.Yields decls (.text (.ofList chars))
      (.text (.ofList ((chars.dropWhile isBlank).rdropWhile isBlank)))
      ⟨(chars.takeWhile isBlank).length + ((chars.dropWhile isBlank).rtakeWhile isBlank).length + 3,
        1⟩ := by
  have hleft : (Request.call trimLeft (.text (.ofList chars))).Yields decls trim
      (.text (.ofList chars)) (.text (.ofList (chars.dropWhile isBlank)))
      ⟨(chars.takeWhile isBlank).length + 1, 1⟩ :=
    Request.yields_call.2 ⟨_, (trimLeft_peels decls).yields (peeled_start chars), rfl⟩
  have hright : (Request.call trimRight (.text (.ofList (chars.dropWhile isBlank)))).Yields decls trim
      (.text (.ofList chars)) (.text (.ofList ((chars.dropWhile isBlank).rdropWhile isBlank)))
      ⟨((chars.dropWhile isBlank).rtakeWhile isBlank).length + 1, 1⟩ :=
    Request.yields_call.2 ⟨_, (trimRight_peels decls).yields (peeled_end _), rfl⟩
  -- The frames of the two calls are one after the other, so their depths are not added up.
  refine .of_done ⟨_ + 2, 1⟩ ?_
  rw [trim_step, Plan.yields_note, Plan.yields_note, Plan.yields_ask]
  refine ⟨_, _, _, hleft, Plan.yields_ask.2 ⟨_, _, 0, hright, ?_, rfl⟩, ?_⟩
  · exact Plan.yields_done.2 ⟨rfl, rfl⟩
  · ext
    · simp only [Cost.add_steps, Cost.zero_steps]
      omega
    · rfl

/-! ## Copies at the end -/

theorem dropSubstr_peels (decls : Declarations) {literal : String} (hliteral : literal ≠ "") :
    (dropSubstr literal).Peels decls (Text.beforeEnd? literal) := by
  refine ⟨fun text => ?_, Text.length_lt_of_beforeEnd? hliteral⟩
  rw [Rule.step, dropSubstr, Arm.tryEach, Pattern.captures?_endingWith, List.findSome?_singleton]
  cases Text.beforeEnd? literal text <;> rfl

theorem append_join_replicate_succ (rest literal : String) (times : Nat) :
    rest ++ String.join (List.replicate (times + 1) literal) =
      rest ++ String.join (List.replicate times literal) ++ literal := by
  rw [List.replicate_succ', String.join_append, String.join_cons, String.join_nil,
    String.append_empty, String.append_assoc]

theorem peeled_copies {literal rest : String} (hrest : ¬ literal.toList <:+ rest.toList)
    (times : Nat) :
    Peeled (Text.beforeEnd? literal) times (rest ++ String.join (List.replicate times literal))
      rest := by
  induction times with
  | zero =>
    rw [List.replicate_zero, String.join_nil, String.append_empty]
    exact .done (Text.beforeEnd?_eq_none_iff.2 hrest)
  | succ times ih =>
    exact .again (Text.beforeEnd?_eq_some_iff.2 (append_join_replicate_succ ..).symm) ih

/-- Every text is something that does not end with the literal and copies of it. -/
theorem exists_copies {literal : String} (hliteral : literal ≠ "") (text : String) :
    ∃ rest times, text = rest ++ String.join (List.replicate times literal) ∧
      ¬ literal.toList <:+ rest.toList := by
  cases hends : Text.beforeEnd? literal text with
  | none => exact ⟨text, 0, by simp, Text.beforeEnd?_eq_none_iff.1 hends⟩
  | some before =>
    have hshorter := Text.length_lt_of_beforeEnd? hliteral hends
    obtain ⟨rest, times, heq, hrest⟩ := exists_copies hliteral before
    refine ⟨rest, times + 1, ?_, hrest⟩
    rw [append_join_replicate_succ, ← heq, Text.beforeEnd?_eq_some_iff.1 hends]
termination_by text.length

/-! ## What is taken off -/

section

variable (decls : Declarations) (mode : Mode) (chars : List Char)

theorem trimLeft_endsWithin :
    trimLeft.EndsWithin decls mode (.text (.ofList chars)) (.text (.ofList (chars.dropWhile isBlank)))
      ⟨(chars.takeWhile isBlank).length + 1, 1⟩ :=
  ((trimLeft_peels decls).yields (peeled_start chars)).endsWithin rfl mode

theorem trimRight_endsWithin :
    trimRight.EndsWithin decls mode (.text (.ofList chars)) (.text (.ofList (chars.rdropWhile isBlank)))
      ⟨(chars.rtakeWhile isBlank).length + 1, 1⟩ :=
  ((trimRight_peels decls).yields (peeled_end chars)).endsWithin rfl mode

theorem trim_endsWithin :
    trim.EndsWithin decls mode (.text (.ofList chars))
      (.text (.ofList ((chars.dropWhile isBlank).rdropWhile isBlank)))
      ⟨(chars.takeWhile isBlank).length + ((chars.dropWhile isBlank).rtakeWhile isBlank).length + 3,
        2⟩ :=
  (trim_yields decls chars).endsWithin rfl mode

end

/-- A text without a blank at the start has none there when it is cut short. -/
theorem dropWhile_eq_self_of_start {chars more : List Char} (hstart : chars <+: more)
    (h : more.dropWhile isBlank = more) : chars.dropWhile isBlank = chars := by
  cases chars with
  | nil => rfl
  | cons c chars =>
    obtain ⟨rest, rfl⟩ := hstart
    simpa [List.dropWhile_eq_self_iff] using h

/-- Once trimmed at both ends, a text has blanks at neither. -/
theorem trimmed_twice (chars : List Char) :
    let trimmed := (chars.dropWhile isBlank).rdropWhile isBlank
    trimmed.dropWhile isBlank = trimmed ∧ trimmed.rdropWhile isBlank = trimmed :=
  ⟨dropWhile_eq_self_of_start (List.rdropWhile_prefix _ _) (List.dropWhile_idempotent _ _),
    List.rdropWhile_idempotent _ _⟩

theorem takeWhile_eq_nil_of_dropWhile {chars : List Char} (h : chars.dropWhile isBlank = chars) :
    chars.takeWhile isBlank = [] := by
  have happend : chars.takeWhile isBlank ++ chars.dropWhile isBlank = chars :=
    List.takeWhile_append_dropWhile
  rw [h] at happend
  exact List.append_left_eq_self.1 happend

theorem rtakeWhile_eq_nil_of_rdropWhile {chars : List Char} (h : chars.rdropWhile isBlank = chars) :
    chars.rtakeWhile isBlank = [] := by
  have happend : chars.rdropWhile isBlank ++ chars.rtakeWhile isBlank = chars :=
    List.rdropWhile_append_rtakeWhile
  rw [h] at happend
  exact List.append_right_eq_self.1 happend

theorem trims_idempotent (decls : Declarations) (mode : Mode) (chars : List Char) :
    ∀ rule ∈ [trimLeft, trimRight, trim], ∀ trimmed s,
      rule.Ends decls (.text (.ofList chars)) (.ofMode mode) (.ok trimmed) s →
        ∃ s', rule.Ends decls trimmed (.ofMode mode) (.ok trimmed) s' := by
  rw [List.forall_mem_cons, List.forall_mem_cons, List.forall_mem_singleton]
  refine ⟨fun _ _ h => ?_, fun _ _ h => ?_, fun _ _ h => ?_⟩
  · have htwice := List.dropWhile_idempotent isBlank chars
    have hagain := trimLeft_endsWithin decls mode (chars.dropWhile isBlank)
    rw [htwice, takeWhile_eq_nil_of_dropWhile htwice] at hagain
    obtain ⟨rfl, hnext⟩ :=
      (trimLeft_endsWithin decls mode chars).ends_next hagain (Nat.le_refl _) (by simp) h
    exact hnext
  · have htwice := List.rdropWhile_idempotent isBlank chars
    have hagain := trimRight_endsWithin decls mode (chars.rdropWhile isBlank)
    rw [htwice, rtakeWhile_eq_nil_of_rdropWhile htwice] at hagain
    obtain ⟨rfl, hnext⟩ :=
      (trimRight_endsWithin decls mode chars).ends_next hagain (Nat.le_refl _) (by simp) h
    exact hnext
  · obtain ⟨hstart, hend⟩ := trimmed_twice chars
    have hagain := trim_endsWithin decls mode ((chars.dropWhile isBlank).rdropWhile isBlank)
    rw [hstart, hend, takeWhile_eq_nil_of_dropWhile hstart, rtakeWhile_eq_nil_of_rdropWhile hend]
      at hagain
    obtain ⟨rfl, hnext⟩ :=
      (trim_endsWithin decls mode chars).ends_next hagain (Nat.le_refl _) (by simp) h
    exact hnext

/-- Trimming takes off the longest run of blanks at an end, or at both, and nothing is left of a text
of blanks. What is trimmed stays as it is when it is trimmed again. Dropping a text at the end leaves
what does not end with it, of which there are copies behind. -/
theorem trimming_maximal (decls : Declarations) (mode : Mode) :
    (∀ text : String,
      let left := text.toList.dropWhile isBlank
      trimLeft.EndsWithin decls mode (.text text) (.text (.ofList left))
        ⟨(text.toList.takeWhile isBlank).length + 1, 1⟩ ∧
      trimRight.EndsWithin decls mode (.text text) (.text (.ofList (text.toList.rdropWhile isBlank)))
        ⟨(text.toList.rtakeWhile isBlank).length + 1, 1⟩ ∧
      trim.EndsWithin decls mode (.text text) (.text (.ofList (left.rdropWhile isBlank)))
        ⟨(text.toList.takeWhile isBlank).length + (left.rtakeWhile isBlank).length + 3, 2⟩ ∧
      (text.toList.all isBlank = true → left.rdropWhile isBlank = []) ∧
      ∀ rule ∈ [trimLeft, trimRight, trim], ∀ trimmed s,
        rule.Ends decls (.text text) (.ofMode mode) (.ok trimmed) s →
          ∃ s', rule.Ends decls trimmed (.ofMode mode) (.ok trimmed) s') ∧
    ∀ literal : String, literal ≠ "" →
      (∀ text : String, ∃ rest times, text = rest ++ String.join (List.replicate times literal) ∧
        ¬ literal.toList <:+ rest.toList) ∧
      ∀ (rest : String) (times : Nat), ¬ literal.toList <:+ rest.toList →
        (dropSubstr literal).EndsWithin decls mode
          (.text (rest ++ String.join (List.replicate times literal))) (.text rest) ⟨times + 1, 1⟩ := by
  refine ⟨fun text => ?_, fun literal hliteral => ⟨exists_copies hliteral, fun rest times hrest => ?_⟩⟩
  · obtain ⟨chars, rfl⟩ : ∃ chars, String.ofList chars = text := ⟨_, String.ofList_toList⟩
    simp only [String.toList_ofList]
    refine ⟨trimLeft_endsWithin decls mode chars, trimRight_endsWithin decls mode chars,
      trim_endsWithin decls mode chars, fun hblank => ?_, trims_idempotent decls mode chars⟩
    rw [List.dropWhile_eq_nil_iff.2 (List.all_eq_true.1 hblank), List.rdropWhile_nil]
  · exact ((dropSubstr_peels decls hliteral).yields (peeled_copies hrest times)).endsWithin rfl mode

/-- A blank between others stays. Of five letters at the end two copies of two are dropped, and one
letter stays. -/
theorem trimming_maximal_inside :
    (∃ s', trim.Ends ∅ (.text " \n a b\t") (.ofMode (.custom 2 (some 7))) (.ok (.text "a b")) s') ∧
    ∃ s', (dropSubstr "aa").Ends ∅ (.text "baaaaa") (.ofMode (.custom 1 (some 3))) (.ok (.text "ba"))
      s' := by
  obtain ⟨-, -, htrim, -⟩ := (trimming_maximal ∅ (.custom 2 (some 7))).1 " \n a b\t"
  have htrimmed : (" \n a b\t".toList.dropWhile isBlank).rdropWhile isBlank = "a b".toList := by decide
  rw [htrimmed, String.ofList_toList] at htrim
  have hdrop := ((trimming_maximal ∅ (.custom 1 (some 3))).2 "aa" (by decide)).2 "ba" 2 (by decide)
  exact ⟨htrim.ok_iff.2 (by decide), hdrop.ok_iff.2 (by decide)⟩

end Library

end Reshape
