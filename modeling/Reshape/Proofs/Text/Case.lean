import Reshape.Text.Case

/-!
# Upper case once and twice

Every character has an upper-case form, and the first character of that form is its own
(`Text.exists_upperChar`). The tables show it: what a run makes of a character is covered by no run
(`Text.CaseRun.avoids`). So it makes no difference to a text that its first character has been put in
upper case before (`Text.capitalize_capitalize`), nor to pieces of which each has been capitalized
that they are capitalized as a whole (`Text.capitalize_join`).
-/

namespace Reshape.Text

/-! ## Characters -/

namespace CaseRun

/-- No image of the run is covered by the other run: the images lie below or above it, or between the
characters that it covers. -/
def avoids (run other : CaseRun) : Bool :=
  Nat.blt other.last run.image || Nat.blt (run.image + (run.last - run.first)) other.first ||
    (other.stride == 2 && (run.stride == 2 || run.first == run.last) &&
      run.image % 2 != other.first % 2)

theorem covers_map {run other : CaseRun} {c : Nat} (h : run.avoids other = true)
    (hc : run.covers c = true) : other.covers (run.map c) = false := by
  simp only [avoids, Bool.or_eq_true, Bool.and_eq_true, beq_iff_eq, bne_iff_ne, Nat.blt_eq] at h
  simp only [covers, Bool.and_eq_true, decide_eq_true_eq, beq_iff_eq] at hc
  obtain ⟨⟨hfirst, hlast⟩, hstride⟩ := hc
  rw [Bool.eq_false_iff, covers, map]
  simp only [ne_eq, Bool.and_eq_true, decide_eq_true_eq, beq_iff_eq]
  rintro ⟨⟨habove, hbelow⟩, hother⟩
  rcases h with (hless | hmore) | ⟨⟨htwo, hrun⟩, hparity⟩
  · omega
  · omega
  · rw [htwo] at hother
    have heven : (c - run.first) % 2 = 0 := by
      rcases hrun with hrun | hsingle
      · rwa [hrun] at hstride
      · omega
    omega

end CaseRun

/-- The characters whose upper-case form is another one, or several. -/
def upperChanged : List CaseRun :=
  upperSpecials.map (fun entry => ⟨entry.1, entry.1, 2, entry.1⟩) ++ upperRuns

theorem upperRuns_avoid : upperRuns.all (fun run => upperChanged.all run.avoids) = true := by
  decide +kernel

theorem upperSpecials_avoid :
    upperSpecials.all (fun entry => entry.2.head?.any fun first =>
      upperChanged.all (!·.covers first)) = true := by
  decide +kernel

/-- What no run covers is its own upper case. -/
theorem upperChar_of_covers {c : Char} (h : ∀ run ∈ upperChanged, run.covers c.toNat = false) :
    upperChar c = [c] := by
  obtain ⟨hspecials, hruns⟩ := List.forall_mem_append.1 h
  unfold upperChar
  split
  · have hletters : (CaseRun.mk 0x61 0x7a 1 0x41).covers c.toNat = false := hruns _ List.mem_cons_self
    have hlower : ¬ ('a'.val ≤ c.val ∧ c.val ≤ 'z'.val) := by
      rintro ⟨hfirst, hlast⟩
      have hfirst : 0x61 ≤ c.toNat := hfirst
      have hlast : c.toNat ≤ 0x7a := hlast
      simp [CaseRun.covers, hfirst, hlast, Nat.mod_one] at hletters
    have hupper : c.toUpper = c := dif_neg hlower
    rw [hupper]
  · have hspecial : upperSpecials.lookup c.toNat = none := by
      refine List.lookup_eq_none_iff.2 fun entry hentry => bne_iff_ne.2 fun heq => ?_
      have hother := hspecials _ (List.mem_map_of_mem hentry)
      simp [CaseRun.covers, ← heq] at hother
    have hrun : upperRuns.find? (·.covers c.toNat) = none :=
      List.find?_eq_none.2 fun run hmem => Bool.eq_false_iff.1 (hruns run hmem)
    rw [mapChar, hspecial, hrun]

/-- A number that is no character is taken for zero, and that is its own upper case. -/
theorem upperChar_ofNat {n : Nat} (h : ∀ run ∈ upperChanged, run.covers n = false) :
    upperChar (.ofNat n) = [.ofNat n] := by
  by_cases hvalid : n.isValidChar
  · have hnumber : (Char.ofNat n).toNat = n := by
      rw [Char.ofNat, dif_pos hvalid]
      rfl
    exact upperChar_of_covers (hnumber.symm ▸ h)
  · rw [Char.ofNat, dif_neg hvalid]
    rfl

theorem upperChar_ascii : ∀ n < 0x80, upperChar (Char.ofNat n).toUpper = [(Char.ofNat n).toUpper] := by
  decide +kernel

/-- Every character has an upper-case form, and its first character is its own. -/
theorem exists_upperChar (c : Char) :
    ∃ first rest, upperChar c = first :: rest ∧ upperChar first = [first] := by
  by_cases hascii : c.toNat < 0x80
  · have hupper := upperChar_ascii c.toNat hascii
    rw [Char.ofNat_toNat] at hupper
    exact ⟨c.toUpper, [], if_pos hascii, hupper⟩
  · rw [upperChar, if_neg hascii, mapChar]
    cases hspecial : upperSpecials.lookup c.toNat with
    | some image =>
      obtain ⟨before, after, hentries, -⟩ := List.lookup_eq_some_iff.1 hspecial
      have hmem : (c.toNat, image) ∈ upperSpecials := by rw [hentries]; simp
      have havoids := List.all_eq_true.1 upperSpecials_avoid _ hmem
      cases image with
      | nil => cases havoids
      | cons first rest =>
        exact ⟨.ofNat first, rest.map .ofNat, rfl, upperChar_ofNat fun other hother => by
          simpa using List.all_eq_true.1 havoids other hother⟩
    | none =>
      cases hrun : upperRuns.find? (·.covers c.toNat) with
      | some run =>
        have havoids := List.all_eq_true.1 upperRuns_avoid run (List.mem_of_find?_eq_some hrun)
        have hcovers : run.covers c.toNat = true := by simpa using List.find?_some hrun
        exact ⟨_, [], rfl, upperChar_ofNat fun other hother =>
          CaseRun.covers_map (List.all_eq_true.1 havoids other hother) hcovers⟩
      | none =>
        refine ⟨c, [], rfl, ?_⟩
        rw [upperChar, if_neg hascii, mapChar, hspecial, hrun]

/-! ## Texts -/

theorem capitalize_empty : CaseOp.capitalize.apply "" = "" := rfl

theorem capitalize_cons (c : Char) (chars : List Char) :
    CaseOp.capitalize.apply (.ofList (c :: chars)) = .ofList (upperChar c ++ chars) := by
  rw [← String.toList_inj, CaseOp.apply, toList_mapFirst, String.toList_ofList, String.toList_ofList,
    List.take_succ_cons, List.take_zero, List.flatMap_singleton]
  rfl

/-- There is nothing to be done a second time. -/
theorem capitalize_capitalize (text : String) :
    CaseOp.capitalize.apply (CaseOp.capitalize.apply text) = CaseOp.capitalize.apply text := by
  obtain ⟨chars, rfl⟩ : ∃ chars, text = .ofList chars := ⟨_, String.ofList_toList.symm⟩
  cases chars with
  | nil => rfl
  | cons c chars =>
    obtain ⟨first, rest, hupper, hfirst⟩ := exists_upperChar c
    rw [capitalize_cons, hupper, List.cons_append, capitalize_cons, hfirst]
    rfl

theorem capitalize_ne_empty {text : String} (h : text ≠ "") : CaseOp.capitalize.apply text ≠ "" := by
  obtain ⟨chars, rfl⟩ : ∃ chars, text = .ofList chars := ⟨_, String.ofList_toList.symm⟩
  cases chars with
  | nil => exact absurd rfl h
  | cons c chars =>
    obtain ⟨first, rest, hupper, -⟩ := exists_upperChar c
    rw [capitalize_cons, hupper, ne_eq, ← String.toList_eq_nil_iff, String.toList_ofList]
    exact List.cons_ne_nil _ _

/-- Only the piece at the start is changed, unless there is nothing in it. -/
theorem capitalize_append {piece : String} (h : piece ≠ "") (rest : String) :
    CaseOp.capitalize.apply (piece ++ rest) = CaseOp.capitalize.apply piece ++ rest := by
  obtain ⟨chars, rfl⟩ : ∃ chars, piece = .ofList chars := ⟨_, String.ofList_toList.symm⟩
  obtain ⟨others, rfl⟩ : ∃ others, rest = .ofList others := ⟨_, String.ofList_toList.symm⟩
  cases chars with
  | nil => exact absurd rfl h
  | cons c chars =>
    rw [← String.ofList_append, List.cons_append, capitalize_cons, capitalize_cons,
      ← String.ofList_append, List.append_assoc]

/-- Where the first pieces are empty, the first that is not has been capitalized already. -/
theorem capitalize_join (pieces : List String) :
    CaseOp.capitalize.apply (String.join (pieces.map CaseOp.capitalize.apply)) =
      String.join (pieces.map CaseOp.capitalize.apply) := by
  induction pieces with
  | nil => rfl
  | cons piece pieces ih =>
    rw [List.map_cons, String.join_cons]
    by_cases hpiece : piece = ""
    · rw [hpiece, capitalize_empty, String.empty_append, ih]
    · rw [capitalize_append (capitalize_ne_empty hpiece), capitalize_capitalize]

theorem capitalize_append_join (piece : String) (pieces : List String) :
    CaseOp.capitalize.apply (piece ++ String.join (pieces.map CaseOp.capitalize.apply)) =
      String.join ((piece :: pieces).map CaseOp.capitalize.apply) := by
  rw [List.map_cons, String.join_cons]
  by_cases hpiece : piece = ""
  · rw [hpiece, capitalize_empty, String.empty_append, capitalize_join]
  · rw [capitalize_append hpiece]

end Reshape.Text
