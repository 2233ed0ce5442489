import Reshape.Proofs.Captures.Consistency
import Reshape.Proofs.Pattern.Binding
import Reshape.Proofs.Text.Occurrence
import Mathlib.Data.List.Chain
import Mathlib.Data.List.Nodup

/-!
# Cuts of a text

A text pattern says how a text may be cut into pieces, one for each segment (`Segment.Along`). The cut
that is looked for stops each run at the leftmost occurrence of the literal after it, and never at a
later one.

If no two literals stand next to each other, that loses nothing: a run follows the literal, and in
front of the pieces of a run and what comes after it any text can be put (`Along.prepend`). So a text
pattern that captures each name once matches exactly the texts that can be cut
(`captures?_text_iff_along`).
-/

namespace Reshape

namespace Segment

/-- Whether the segment is a run, with a name or without. -/
def isRun : Segment → Bool
  | .run _ => true
  | .literal _ => false

/-- No two literals stand next to each other. -/
def Spaced : List Segment → Prop :=
  List.IsChain fun segment next => segment.isRun = true ∨ next.isRun = true

/-- The pieces are what the segments ask for: one of the alternatives for a literal, exactly one
character for a run in front of another one, and anything for any other run. -/
inductive Along : List Segment → List String → Prop where
  | nil : Along [] []
  | literal {alternatives : List String} {piece : String} {segments : List Segment}
      {pieces : List String} :
      piece ∈ alternatives → Along segments pieces →
      Along (.literal alternatives :: segments) (piece :: pieces)
  | run {name : Option String} {piece : String} {segments : List Segment} {pieces : List String} :
      (segments.head?.any isRun = true → piece.length = 1) → Along segments pieces →
      Along (.run name :: segments) (piece :: pieces)

/-- The pieces of the runs that have a name. -/
def named (segments : List Segment) (pieces : List String) : CutRuns :=
  (segments.zip pieces).filterMap fun (segment, piece) => segment.name?.map (·, piece)

variable {segments : List Segment} {pieces : List String} {name : Option String} {piece s : String}
  {runs : CutRuns}

theorem named_run (name : Option String) (segments : List Segment) (piece : String)
    (pieces : List String) :
    named (.run name :: segments) (piece :: pieces) = record name piece (named segments pieces) := by
  cases name <;> rfl

theorem mem_named {name : String} :
    (name, piece) ∈ named segments pieces ↔ (.run (some name), piece) ∈ segments.zip pieces := by
  constructor
  · intro h
    obtain ⟨⟨segment, text⟩, hmem, hnamed⟩ := List.mem_filterMap.1 h
    obtain ⟨_, hname, heq⟩ := Option.map_eq_some_iff.1 hnamed
    cases heq
    cases segment with
    | run name =>
      cases hname
      exact hmem
    | literal alternatives => cases hname
  · exact fun h => List.mem_filterMap.2 ⟨_, h, rfl⟩

/-- What stands before a literal that ends a run, the literal and what stands after it are the
text. -/
theorem stopAt?_join {isLast : Bool} {literal s piece after : String}
    (h : stopAt? isLast literal s = some (piece, after)) : piece ++ (literal ++ after) = s := by
  unfold stopAt? at h
  split at h
  · obtain ⟨before, hbefore, hparts⟩ := Option.map_eq_some_iff.1 h
    cases hparts
    rw [String.append_empty, Text.beforeEnd?_eq_some_iff.1 hbefore]
  · rw [← String.append_assoc, (Text.aroundFirst?_eq_some_iff.1 h).1]

theorem take_append_drop (s : String) (n : Nat) : (s.take n).copy ++ (s.drop n).copy = s := by
  rw [← String.toList_inj]
  simp

theorem not_isEmpty_of_pos (h : 0 < s.length) : ¬ s.isEmpty = true := by
  intro hempty
  rw [String.isEmpty_iff.1 hempty, String.length_empty] at h
  exact Nat.lt_irrefl 0 h

theorem length_take_one (h : ¬ s.isEmpty = true) : (s.take 1).copy.length = 1 := by
  have hpos : 0 < s.toList.length := by
    rw [List.length_pos_iff, ne_eq, String.toList_eq_nil_iff]
    exact fun hnil => h (String.isEmpty_iff.2 hnil)
  rw [← String.length_toList, String.toList_copy_take, List.length_take]
  omega

/-! ## The cut that is found is one -/

/-- What is found is a cut of the text, and what is captured are its pieces. -/
theorem exists_along_of_cut? : ∀ {segments : List Segment} {s : String} {runs : CutRuns},
    cut? segments s = some runs →
    ∃ pieces, Along segments pieces ∧ String.join pieces = s ∧ runs = named segments pieces
  | [], s, runs, h => by
    rw [cut?] at h
    split at h
    · rename_i hempty
      cases h
      exact ⟨[], .nil, (String.isEmpty_iff.1 hempty).symm, rfl⟩
    · cases h
  | .literal alternatives :: segments, s, runs, h => by
    rw [cut?] at h
    obtain ⟨literal, hmem, hliteral⟩ := List.exists_of_findSome?_eq_some h
    split at hliteral
    · rename_i after hafter
      obtain ⟨pieces, halong, rfl, rfl⟩ := exists_along_of_cut? hliteral
      refine ⟨literal :: pieces, .literal hmem halong, ?_, rfl⟩
      rw [String.join_cons, Text.afterStart?_eq_some_iff.1 hafter]
    · cases hliteral
  | [.run name], s, runs, h => by
    cases h
    refine ⟨[s], .run (fun h => absurd h Bool.false_ne_true) .nil, ?_,
      (named_run name [] s []).symm⟩
    rw [String.join_cons, String.join_nil, String.append_empty]
  | .run name :: .run next :: segments, s, runs, h => by
    rw [cut?] at h
    split at h
    · cases h
    · rename_i hempty
      obtain ⟨found, hfound, rfl⟩ := Option.map_eq_some_iff.1 h
      obtain ⟨pieces, halong, hjoin, rfl⟩ := exists_along_of_cut? hfound
      refine ⟨(s.take 1).copy :: pieces,
        .run (fun _ => length_take_one hempty) halong, ?_,
        (named_run ..).symm⟩
      rw [String.join_cons, hjoin, take_append_drop]
  | .run name :: .literal alternatives :: segments, s, runs, h => by
    rw [cut?] at h
    obtain ⟨literal, hmem, hliteral⟩ := List.exists_of_findSome?_eq_some h
    split at hliteral
    · rename_i piece after hstop
      obtain ⟨found, hfound, rfl⟩ := Option.map_eq_some_iff.1 hliteral
      obtain ⟨pieces, halong, rfl, rfl⟩ := exists_along_of_cut? hfound
      refine ⟨piece :: literal :: pieces,
        .run (fun h => absurd h Bool.false_ne_true) (.literal hmem halong), ?_, (named_run ..).symm⟩
      rw [String.join_cons, String.join_cons, stopAt?_join hstop]
    · cases hliteral

theorem length_le_join (h : piece ∈ pieces) : piece.length ≤ (String.join pieces).length := by
  induction h with
  | head rest =>
    rw [String.join_cons, String.length_append]
    exact Nat.le_add_right _ _
  | tail _ _ ih =>
    rw [String.join_cons, String.length_append]
    exact Nat.le_trans ih (Nat.le_add_left _ _)

/-- What is captured from a text is no longer than the text. -/
theorem length_le_of_cut? {name : String} (h : cut? segments s = some runs)
    (hmem : (name, piece) ∈ runs) : piece.length ≤ s.length := by
  obtain ⟨pieces, -, rfl, rfl⟩ := exists_along_of_cut? h
  exact length_le_join (List.of_mem_zip (mem_named.1 hmem)).2

/-! ## No cut is lost -/

/-- In front of what can be cut along a run and the segments after it, any text can stand. A run in
front of another one keeps a single character and leaves the others to the next. -/
theorem Along.prepend (h : Along segments pieces) (hrun : segments.head?.any isRun = true)
    (text : String) :
    ∃ pieces', Along segments pieces' ∧ String.join pieces' = text ++ String.join pieces := by
  induction h generalizing text with
  | nil => cases hrun
  | literal _ _ _ => cases hrun
  | @run name piece segments pieces hone hrest ih =>
    by_cases hnext : segments.head?.any isRun = true
    · have hempty : ¬ (text ++ piece).isEmpty = true :=
        not_isEmpty_of_pos (by rw [String.length_append, hone hnext]; omega)
      obtain ⟨pieces', halong, hjoin⟩ := ih hnext ((text ++ piece).drop 1).copy
      refine ⟨((text ++ piece).take 1).copy :: pieces', .run (fun _ => length_take_one hempty) halong,
        ?_⟩
      rw [String.join_cons, String.join_cons, hjoin, ← String.append_assoc, take_append_drop,
        String.append_assoc]
    · refine ⟨(text ++ piece) :: pieces, .run (fun h => absurd h hnext) hrest, ?_⟩
      rw [String.join_cons, String.join_cons, String.append_assoc]

theorem Spaced.tail {segment : Segment} (h : Spaced (segment :: segments)) : Spaced segments :=
  List.IsChain.tail h

theorem Spaced.isRun_head {alternatives : List String} (h : Spaced (.literal alternatives :: segments))
    (hne : segments ≠ []) : segments.head?.any isRun = true := by
  cases segments with
  | nil => exact absurd rfl hne
  | cons next rest => exact (h.rel_head? rfl).resolve_left Bool.false_ne_true

/-- A literal that can end a run does end it, and leaves something that can be cut along the segments
after it. -/
theorem exists_stopAt?_of_along {alternatives : List String} {literal : String}
    (hspaced : Spaced (.literal alternatives :: segments)) (halong : Along segments pieces)
    (hjoin : piece ++ (literal ++ String.join pieces) = s) :
    ∃ first after, stopAt? segments.isEmpty literal s = some (first, after) ∧
      ∃ pieces', Along segments pieces' ∧ String.join pieces' = after := by
  by_cases hlast : segments = []
  · subst hlast
    cases halong
    rw [String.join_nil, String.append_empty] at hjoin
    refine ⟨piece, "", ?_, [], .nil, String.join_nil⟩
    show (Text.beforeEnd? literal s).map _ = _
    rw [Text.beforeEnd?_eq_some_iff.2 hjoin, Option.map_some]
  · -- the leftmost occurrence may be an earlier one, with more of the text behind it
    obtain ⟨first, between, haround, -⟩ :=
      Text.exists_aroundFirst? ((String.append_assoc ..).trans hjoin)
    refine ⟨first, _, ?_, halong.prepend (hspaced.isRun_head hlast) between⟩
    rw [stopAt?, List.isEmpty_eq_false_iff.2 hlast]
    exact haround

/-- A text that can be cut is cut. -/
theorem exists_cut?_of_along : ∀ {segments : List Segment} {pieces : List String} {s : String},
    Spaced segments → Along segments pieces → String.join pieces = s →
    ∃ runs, cut? segments s = some runs
  | [], _, _, _, .nil, rfl => ⟨[], rfl⟩
  | .literal alternatives :: segments, _, _, hspaced, halong, rfl => by
    cases halong with
    | @literal _ piece _ pieces hmem hrest =>
      obtain ⟨runs, hruns⟩ := exists_cut?_of_along hspaced.tail hrest rfl
      rw [cut?, ← Option.isSome_iff_exists, List.findSome?_isSome_iff]
      refine ⟨piece, hmem, ?_⟩
      rw [Text.afterStart?_eq_some_iff.2 String.join_cons.symm]
      exact Option.isSome_iff_exists.2 ⟨runs, hruns⟩
  | [.run name], _, _, _, _, _ => ⟨_, rfl⟩
  | .run name :: .run next :: segments, _, _, hspaced, halong, rfl => by
    cases halong with
    | @run _ piece _ pieces hone hrest =>
      have hlength : piece.length = 1 := hone rfl
      have hempty : ¬ (String.join (piece :: pieces)).isEmpty = true :=
        not_isEmpty_of_pos (by rw [String.join_cons, String.length_append, hlength]; omega)
      have hdrop : ((String.join (piece :: pieces)).drop 1).copy = String.join pieces := by
        rw [← String.toList_inj, String.toList_copy_drop, String.join_cons, String.toList_append,
          ← hlength, ← String.length_toList, List.drop_left]
      obtain ⟨runs, hruns⟩ := exists_cut?_of_along hspaced.tail hrest rfl
      rw [cut?, if_neg hempty, hdrop, hruns]
      exact ⟨_, rfl⟩
  | .run name :: .literal alternatives :: segments, _, s, hspaced, halong, hjoin => by
    cases halong with
    | @run _ piece _ _ _ hrest =>
      cases hrest with
      | @literal _ literal _ pieces hmem hrest =>
        rw [String.join_cons, String.join_cons] at hjoin
        obtain ⟨first, after, hstop, pieces', halong', rfl⟩ :=
          exists_stopAt?_of_along hspaced.tail hrest hjoin
        obtain ⟨runs, hruns⟩ := exists_cut?_of_along hspaced.tail.tail halong' rfl
        rw [cut?, ← Option.isSome_iff_exists, List.findSome?_isSome_iff]
        refine ⟨literal, hmem, ?_⟩
        rw [hstop]
        dsimp only
        rw [hruns]
        rfl

end Segment

/-! ## What a cut captures -/

namespace Pattern

open Segment (Spaced Along cut? name?)

variable {decls : Declarations} {segments : List Segment} {s : String} {runs : CutRuns}

/-- The runs of a cut are bound one after another. -/
theorem captures?_text (decls : Declarations) (segments : List Segment) (s : String) :
    (Pattern.text segments).captures? decls (.text s) = (cut? segments s).bind fun runs =>
      Captures.bindAll (runs.map fun (name, piece) => (name, .text piece)) ∅ := by
  rw [captures?, extend?]
  show (cut? segments s).bind _ = _
  simp only [Captures.bindAll, List.foldlM_map]

/-- Runs with names of their own are all bound, and nothing else is. -/
theorem exists_captures?_text (hcut : cut? segments s = some runs) (hnames : (runs.map (·.1)).Nodup) :
    ∃ captures, (Pattern.text segments).captures? decls (.text s) = some captures ∧
      ∀ name term, captures.get? name = some term ↔
        ∃ piece, (name, piece) ∈ runs ∧ term = .text piece := by
  have hpairs : ∀ name term,
      (name, term) ∈ (runs.map fun (name, piece) => (name, Term.text piece)) ↔
        ∃ piece, (name, piece) ∈ runs ∧ term = .text piece := by
    intro name term
    simp only [List.mem_map, Prod.mk.injEq, Prod.exists]
    constructor
    · rintro ⟨_, piece, hmem, rfl, rfl⟩
      exact ⟨piece, hmem, rfl⟩
    · rintro ⟨piece, hmem, rfl⟩
      exact ⟨name, piece, hmem, rfl, rfl⟩
  have hone : ∀ {name a b}, (name, a) ∈ runs → (name, b) ∈ runs → a = b := fun ha hb =>
    congrArg Prod.snd (List.inj_on_of_nodup_map hnames ha hb rfl)
  have hconsistent : Consistent (runs.map fun (name, piece) => (name, Term.text piece)) := by
    intro name a b ha hb
    obtain ⟨_, hfirst, rfl⟩ := (hpairs name a).1 ha
    obtain ⟨_, hsecond, rfl⟩ := (hpairs name b).1 hb
    rw [hone hfirst hsecond]
    exact (Term.beq_iff (Term.wellKeyed_text _) (Term.wellKeyed_text _)).2 rfl
  obtain ⟨captures, hcaptures⟩ : ∃ captures,
      Captures.bindAll (runs.map fun (name, piece) => (name, .text piece)) ∅ = some captures :=
    Captures.exists_bindAll hconsistent fun _ _ _ _ hget => nomatch hget
  refine ⟨captures, ?_, fun name term => ?_⟩
  · rw [captures?_text, hcut, Option.bind_some]
    exact hcaptures
  · rw [← hpairs]
    refine ⟨Captures.mem_of_get?_bindAll hcaptures, fun hmem => ?_⟩
    obtain ⟨bound, hbound, -⟩ := Captures.exists_of_bindAll hcaptures hmem
    obtain ⟨_, hfirst, rfl⟩ := (hpairs name bound).1 (Captures.mem_of_get?_bindAll hcaptures hbound)
    obtain ⟨_, hsecond, rfl⟩ := (hpairs name term).1 hmem
    rw [hbound, hone hfirst hsecond]

/-- If no two literals stand next to each other and no name is captured twice, a text pattern matches
exactly the texts that can be cut along it, and captures the named pieces of one cut. -/
theorem captures?_text_iff_along (decls : Declarations) (segments : List Segment) (s : String)
    (hspaced : Spaced segments) (hnames : (segments.filterMap name?).Nodup) :
    ((∃ captures, (Pattern.text segments).captures? decls (.text s) = some captures) ↔
      ∃ pieces, Along segments pieces ∧ String.join pieces = s) ∧
    ∀ captures, (Pattern.text segments).captures? decls (.text s) = some captures →
      ∃ pieces, Along segments pieces ∧ String.join pieces = s ∧
        ∀ name term, captures.get? name = some term ↔
          ∃ piece, (.run (some name), piece) ∈ segments.zip pieces ∧ term = .text piece := by
  have hmatches : ∀ {captures}, (Pattern.text segments).captures? decls (.text s) = some captures →
      ∃ runs, cut? segments s = some runs := by
    intro captures h
    rw [captures?_text] at h
    obtain ⟨runs, hcut, -⟩ := Option.bind_eq_some_iff.1 h
    exact ⟨runs, hcut⟩
  have hbinds : ∀ {runs}, cut? segments s = some runs → ∃ captures,
      (Pattern.text segments).captures? decls (.text s) = some captures ∧
        ∀ name term, captures.get? name = some term ↔
          ∃ piece, (name, piece) ∈ runs ∧ term = .text piece := fun hcut =>
    exists_captures?_text hcut ((Segment.map_fst_of_cut? hcut).symm ▸ hnames)
  refine ⟨⟨?_, ?_⟩, fun captures h => ?_⟩
  · rintro ⟨captures, h⟩
    obtain ⟨runs, hcut⟩ := hmatches h
    obtain ⟨pieces, halong, hjoin, -⟩ := Segment.exists_along_of_cut? hcut
    exact ⟨pieces, halong, hjoin⟩
  · rintro ⟨pieces, halong, hjoin⟩
    obtain ⟨runs, hcut⟩ := Segment.exists_cut?_of_along hspaced halong hjoin
    obtain ⟨captures, hcaptures, -⟩ := hbinds hcut
    exact ⟨captures, hcaptures⟩
  · obtain ⟨runs, hcut⟩ := hmatches h
    obtain ⟨bound, hcaptures, hget⟩ := hbinds hcut
    cases h.symm.trans hcaptures
    obtain ⟨pieces, halong, hjoin, rfl⟩ := Segment.exists_along_of_cut? hcut
    refine ⟨pieces, halong, hjoin, fun name term => ?_⟩
    simp only [hget, Segment.mem_named]

/-- A cut at the second dash is enough to know that there is a match, which stops at the first. -/
theorem exists_captures?_dashes :
    ∃ captures, (Pattern.text [.run "name", .literal ["-"], .run "letter", .run none,
      .literal ["?", "!"]]).captures? ∅ (.text "x--y?!") = some captures :=
  (captures?_text_iff_along ∅ _ "x--y?!" (by simp [Spaced, Segment.isRun]) (by decide)).1.2
    ⟨["x-", "-", "y", "?", "!"],
      .run nofun (.literal List.mem_cons_self (.run (fun _ => rfl) (.run nofun
        (.literal (List.mem_cons_of_mem _ List.mem_cons_self) .nil)))), by decide⟩

end Pattern

end Reshape
