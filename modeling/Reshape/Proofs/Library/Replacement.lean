import Reshape.Library.Texts
import Reshape.Proofs.Pattern.Ends
import Reshape.Proofs.Reduction.Descent
import Reshape.Proofs.Reduction.Results
import Reshape.Proofs.Text.Scan

/-!
# Replacement in texts

Replacing every occurrence of a literal comes to what a scan from left to right emits
(`Library.replaceAll_yields`): each run stops at the leftmost occurrence, and the text after it is
fed back into a frame on top. So one frame and one step more than there are replacements is what it
takes, and a mode with less reaches a limit (`Library.replaceAll_scans`).

Replacing the first occurrence takes a single step. The empty literal stands at the start of every
text with the whole of it behind, which is not smaller and is refused.
-/

namespace Reshape.Library

variable {decls : Declarations} {literal replacement text before after : String}

/-! ## Around a literal -/

/-- What is bound around a literal. -/
def around (before after : String) : Captures :=
  ⟨(Table.set ∅ "prefix" (.text before)).set "suffix" (.text after)⟩

/-- The literal is found at its leftmost occurrence. -/
theorem captures?_aroundLiteral (decls : Declarations) (literal text : String) :
    (aroundLiteral literal).captures? decls (.text text) =
      (Text.aroundFirst? literal text).map fun (before, after) => around before after :=
  Pattern.captures?_around decls (by decide) literal text

/-! ## Replacing the first occurrence -/

theorem replace_step (h : Text.aroundFirst? literal text = some (before, after)) :
    (replace literal replacement).step decls (.text text) =
      .note .armTried (.note .armTaken (.done (.done (.text (before ++ replacement ++ after))))) := by
  have hbuilt : before ++ replacement ++ after = before ++ (replacement ++ (after ++ "")) := by
    rw [String.append_empty, String.append_assoc]
  rw [Rule.step, replace, Arm.tryEach, captures?_aroundLiteral, h, hbuilt]
  rfl

theorem replace_yields (h : Text.aroundFirst? literal text = some (before, after)) :
    (replace literal replacement).Yields decls (.text text) (.text (before ++ replacement ++ after))
      ⟨1, 0⟩ := by
  refine Rule.yields_iff_step.2 ⟨.done _, 0, 0, ?_, ⟨rfl, rfl⟩, rfl⟩
  rw [replace_step h, Plan.yields_note, Plan.yields_note, Plan.yields_done]
  exact ⟨rfl, rfl⟩

theorem replace_nests : (replace literal replacement).Nests decls :=
  Rule.nests rfl rfl fun arm harm inner => by
    cases List.mem_singleton.1 harm
    nofun

/-! ## Replacing every occurrence -/

theorem replaceAll_step_of_not_occurs (h : Text.aroundFirst? literal text = none) :
    (replaceAll literal replacement).step decls (.text text) =
      .note .armTried (.done (.done (.text text))) := by
  rw [Rule.step, replaceAll, Arm.tryEach, captures?_aroundLiteral, h]
  rfl

/-- The text after the literal is fed back, and its result stands after the replacement. -/
theorem replaceAll_step (decls : Declarations) (replacement : String)
    (h : Text.aroundFirst? literal text = some (before, after)) :
    ∃ next, (replaceAll literal replacement).step decls (.text text) =
        .note .armTried (.note .armTaken (.ask (.self (.text after)) next)) ∧
      ∀ rest, next (.text rest) = .done (.done (.text (before ++ (replacement ++ rest)))) := by
  rw [Rule.step, replaceAll, Arm.tryEach, captures?_aroundLiteral, h]
  refine ⟨_, rfl, fun rest => ?_⟩
  have hbuilt : before ++ (replacement ++ rest) = before ++ (replacement ++ (rest ++ "")) := by
    rw [String.append_empty]
  rw [hbuilt]
  rfl

theorem replaceAll_admits (h : after.length < text.length) :
    (replaceAll literal replacement).admitFeedback (.text text) (.text after) = .ok () := by
  rw [Rule.admitFeedback, if_neg]
  rw [Bool.and_eq_true, decide_eq_true_eq, decide_eq_true_eq, Term.size, Term.size]
  omega

/-- A run takes one step more than the one on the text after the literal, which is in a frame on
top. -/
theorem replaceAll_yields_of_after {rest : String} {cost : Cost} (hliteral : literal ≠ "")
    (h : Text.aroundFirst? literal text = some (before, after))
    (hafter : (replaceAll literal replacement).Yields decls (.text after) (.text rest) cost) :
    (replaceAll literal replacement).Yields decls (.text text)
      (.text (before ++ (replacement ++ rest))) cost.nested.step := by
  obtain ⟨next, hstep, hnext⟩ := replaceAll_step decls replacement h
  refine Rule.yields_iff_step.2 ⟨.done _, cost.nested, 0, ?_, ⟨rfl, rfl⟩, (add_zero _).symm⟩
  rw [hstep, Plan.yields_note, Plan.yields_note, Plan.yields_ask]
  refine ⟨.text rest, cost.nested, 0, ?_, ?_, (add_zero _).symm⟩
  · exact Request.yields_self.2 ⟨replaceAll_admits (Text.length_lt_of_aroundFirst? hliteral h), cost, hafter, rfl⟩
  · rw [hnext, Plan.yields_done]
    exact ⟨rfl, rfl⟩

/-- A run comes to what a scan emits, with a step for every replacement and one more. -/
theorem replaceAll_yields (hliteral : literal ≠ "") (text : String) :
    (replaceAll literal replacement).Yields decls (.text text)
      (.text (.ofList (Text.scan literal replacement text).emitted))
      ⟨(Text.scan literal replacement text).count + 1, (Text.scan literal replacement text).count⟩ := by
  cases h : Text.aroundFirst? literal text with
  | none =>
    rw [Text.scan_of_not_occurs h]
    refine Rule.yields_iff_step.2 ⟨.done _, 0, 0, ?_, ⟨rfl, rfl⟩, rfl⟩
    rw [replaceAll_step_of_not_occurs h, Plan.yields_note, Plan.yields_done, String.ofList_toList]
    exact ⟨rfl, rfl⟩
  | some parts =>
    obtain ⟨before, after⟩ := parts
    have hless := Text.length_lt_of_aroundFirst? hliteral h
    have hfound := replaceAll_yields_of_after hliteral h (replaceAll_yields hliteral after)
    rw [Text.scan_of_aroundFirst? hliteral h]
    rwa [String.ofList_append, String.ofList_append, String.ofList_toList, String.ofList_toList]
termination_by text.length

theorem replaceAll_nests : (replaceAll literal replacement).Nests decls :=
  Rule.nests rfl rfl fun arm harm inner => by
    cases List.mem_singleton.1 harm
    nofun

/-- The empty literal leaves the whole text to be fed back, which is refused. -/
theorem replaceAll_refuses (decls : Declarations) (replacement text : String) :
    (replaceAll "" replacement).Enters decls (.text text) none
      (.error ⟨.notShrinking "replace_all", ["replace_all"]⟩) none ⟨1, 1⟩ := by
  have hwhole : Text.aroundFirst? "" text = some ("", text) :=
    Text.aroundFirst?_eq_some_iff.2 ⟨rfl, nofun⟩
  obtain ⟨next, hstep, -⟩ := replaceAll_step decls replacement hwhole
  have hrefused : (replaceAll "" replacement).admitFeedback (.text text) (.text text) =
      .error ⟨.notShrinking "replace_all", []⟩ := by
    rw [Rule.admitFeedback, if_pos]
    · rfl
    · rw [decide_eq_true (Nat.le_refl _)]
      rfl
  have hplan : Plan.Settles decls (replaceAll "" replacement) (.text text)
      ((replaceAll "" replacement).step decls (.text text)) none
      (.error ⟨.notShrinking "replace_all", []⟩) none 0 := by
    rw [hstep]
    exact .note (.note (.failed (.refused hrefused)))
  exact .failed rfl (.failed hplan)

/-- Replacing every occurrence of a literal comes to what a scan from left to right emits, or reaches
a limit; it takes one frame and one step more than there are replacements. The empty literal is
refused. Replacing the first occurrence replaces the leftmost one, which is the first that a scan
replaces. -/
theorem replaceAll_scans (decls : Declarations) (mode : Mode) (literal replacement text : String) :
    (literal ≠ "" → ∃ o s',
      (replaceAll literal replacement).Ends decls (.text text) (.ofMode mode) o s' ∧
      (o = .ok (.text (.ofList (Text.scan literal replacement text).emitted)) ∨ o.hitLimit = true) ∧
      (o = .ok (.text (.ofList (Text.scan literal replacement text).emitted)) ↔
        (Text.scan literal replacement text).count + 1 ≤ mode.maxDepth ∧
          ∀ budget ∈ mode.budget?, (Text.scan literal replacement text).count + 1 ≤ budget)) ∧
    (1 ≤ mode.maxDepth → (∀ budget ∈ mode.budget?, 1 ≤ budget) → ∃ s',
      (replaceAll "" replacement).Ends decls (.text text) (.ofMode mode)
        (.error ⟨.notShrinking "replace_all", ["replace_all"]⟩) s') ∧
    ((∃ before after, before ++ literal ++ after = text) → ∃ before after,
      before ++ literal ++ after = text ∧
      (∀ m < before.length, ¬ literal.toList <+: text.toList.drop m) ∧
      (literal ≠ "" → Text.scan literal replacement text =
        ⟨before.toList ++ (replacement.toList ++ (Text.scan literal replacement after).emitted),
          (Text.scan literal replacement after).count + 1⟩) ∧
      ∃ o s', (replace literal replacement).Ends decls (.text text) (.ofMode mode) o s' ∧
        (o = .ok (.text (before ++ replacement ++ after)) ∨ o.hitLimit = true) ∧
        (o = .ok (.text (before ++ replacement ++ after)) ↔
          1 ≤ mode.maxDepth ∧ ∀ budget ∈ mode.budget?, 1 ≤ budget)) := by
  refine ⟨fun hliteral => ?_, fun hdepth hbudget => ?_, fun ⟨before', after', hoccurs⟩ => ?_⟩
  · exact Rule.exists_ends_ofMode replaceAll_nests rfl (replaceAll_yields hliteral text).enters rfl mode
  · obtain ⟨o, s', hends, -, hiff⟩ := Rule.exists_ends_ofMode replaceAll_nests rfl
      (replaceAll_refuses decls replacement text) rfl mode
    rw [hiff.2 ⟨hdepth, hbudget⟩] at hends
    exact ⟨s', hends⟩
  · obtain ⟨before, between, hfound, -⟩ := Text.exists_aroundFirst? hoccurs
    obtain ⟨hparts, hleast⟩ := Text.aroundFirst?_eq_some_iff.1 hfound
    refine ⟨before, _, hparts, hleast, fun hliteral => Text.scan_of_aroundFirst? hliteral hfound, ?_⟩
    exact Rule.exists_ends_ofMode replace_nests rfl (replace_yields hfound).enters rfl mode

/-- The occurrences that overlap others are not replaced, and neither is the one that comes about
where a replacement ends. -/
theorem replaceAll_overlapping :
    ∃ s', (replaceAll "aa" "ba").Ends ∅ (.text "aaaaa") (.ofMode (.custom 3 (some 3)))
      (.ok (.text "babaa")) s' := by
  obtain ⟨o, s', hends, -, hiff⟩ :=
    (replaceAll_scans ∅ (.custom 3 (some 3)) "aa" "ba" "aaaaa").1 (by decide)
  have hscan : Text.scan "aa" "ba" "aaaaa" = ⟨"babaa".toList, 2⟩ := by decide
  rw [hscan, String.ofList_toList] at hiff
  rw [hiff.2 (by decide)] at hends
  exact ⟨s', hends⟩

end Reshape.Library
