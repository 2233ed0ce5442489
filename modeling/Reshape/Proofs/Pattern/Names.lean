import Reshape.Proofs.Pattern.Choices
import Reshape.Proofs.Pattern.Resemblance

/-!
# Names that a match binds

What a match binds lies between two lists of names that can be read off the pattern: it binds all
names that every alternative binds, and none that does not stand in the pattern. A pattern without
alternations leaves nothing open (`Pattern.names_of_altFree`), and every match binds what the match of
one choice of alternatives binds, so both bounds come from the case without alternations
(`Pattern.binding_bracketed`).
-/

namespace Reshape.Pattern

variable {decls : Declarations} {name : String} {pattern : Pattern} {term : Term}

theorem mem_namesAll {patterns : List Pattern} :
    name ∈ namesAll patterns ↔ ∃ pattern ∈ patterns, name ∈ pattern.names := by
  induction patterns with
  | nil => simp [namesAll]
  | cons pattern rest ih => simp [namesAll, ih]

theorem mem_namesOption {pattern : Option Pattern} :
    name ∈ namesOption pattern ↔ ∃ inner ∈ pattern, name ∈ inner.names := by
  cases pattern <;> simp [namesOption]

theorem mem_namesFields {fields : List (FieldPattern Pattern)} :
    name ∈ namesFields fields ↔ ∃ field ∈ fields, name ∈ field.value.names := by
  induction fields with
  | nil => simp [namesFields]
  | cons field rest ih => simp [namesFields, ih]

/-! ## Patterns without alternations -/

mutual

/-- Without alternations, a match binds all names in the pattern. -/
theorem names_of_altFree (pattern : Pattern) (h : pattern.altFree = true) :
    pattern.names = pattern.binders := by
  match pattern with
  | .any | .bind _ | .literal _ | .kind _ | .fits _ => rfl
  | .text segments => rfl
  | .named name inner => exact congrArg (name :: ·) (names_of_altFree inner h)
  | .seq front rest back | .chars front rest back =>
    simp only [altFree, Bool.and_eq_true] at h
    rw [names, binders, namesAll_of_altFree front h.1.1, namesOption_of_altFree rest h.1.2,
      namesAll_of_altFree back h.2]
  | .composite fields => exact namesFields_of_altFree fields h
  | .apply _ args => exact namesAll_of_altFree args h
  | .function _ receiver params result =>
    simp only [altFree, Bool.and_eq_true] at h
    rw [names, binders, namesOption_of_altFree receiver h.1.1, names_of_altFree params h.1.2,
      names_of_altFree result h.2]
termination_by structural pattern

theorem namesAll_of_altFree (patterns : List Pattern) (h : altFreeAll patterns = true) :
    namesAll patterns = bindersAll patterns := by
  match patterns with
  | [] => rfl
  | pattern :: rest =>
    simp only [altFreeAll, Bool.and_eq_true] at h
    rw [namesAll, bindersAll, names_of_altFree pattern h.1, namesAll_of_altFree rest h.2]
termination_by structural patterns

theorem namesOption_of_altFree (pattern : Option Pattern) (h : altFreeOption pattern = true) :
    namesOption pattern = bindersOption pattern := by
  match pattern with
  | none => rfl
  | some pattern => exact names_of_altFree pattern h
termination_by structural pattern

theorem namesFields_of_altFree (fields : List (FieldPattern Pattern))
    (h : altFreeFields fields = true) : namesFields fields = bindersFields fields := by
  match fields with
  | [] => rfl
  | ⟨_, _, value⟩ :: rest =>
    simp only [altFreeFields, Bool.and_eq_true] at h
    rw [namesFields, bindersFields, names_of_altFree value h.1, namesFields_of_altFree rest h.2]
termination_by structural fields

end

/-! ## Names of choices -/

mutual

/-- A choice has no names that the pattern does not have. -/
theorem Chooses.mem_names {pattern chosen : Pattern} (h : Chooses pattern chosen)
    (hname : name ∈ chosen.names) : name ∈ pattern.names := by
  match h with
  | .any | .bind _ | .literal _ | .kind _ | .fits _ | .text _ => exact hname
  | .alt hmem hchosen => exact mem_namesAll.2 ⟨_, hmem, hchosen.mem_names hname⟩
  | .named _ hinner =>
    rw [names, List.mem_cons] at hname ⊢
    exact hname.imp_right hinner.mem_names
  | .seq hfront hrest hback | .chars hfront hrest hback =>
    simp only [names, List.mem_append] at hname ⊢
    exact hname.imp (Or.imp (mem_namesAll_of_chooses hfront) (mem_namesOption_of_chooses hrest))
      (mem_namesAll_of_chooses hback)
  | .composite hfields => exact mem_namesFields_of_chooses hfields hname
  | .apply _ hargs => exact mem_namesAll_of_chooses hargs hname
  | .function _ hreceiver hparams hresult =>
    simp only [names, List.mem_append] at hname ⊢
    exact hname.imp (Or.imp (mem_namesOption_of_chooses hreceiver) hparams.mem_names)
      hresult.mem_names

theorem mem_namesAll_of_chooses {patterns chosen : List Pattern}
    (h : List.Forall₂ Chooses patterns chosen) (hname : name ∈ namesAll chosen) :
    name ∈ namesAll patterns := by
  match h with
  | .nil => exact hname
  | .cons hfirst hrest =>
    rw [namesAll, List.mem_append] at hname ⊢
    exact hname.imp hfirst.mem_names (mem_namesAll_of_chooses hrest)

theorem mem_namesOption_of_chooses {pattern chosen : Option Pattern}
    (h : Option.Rel Chooses pattern chosen) (hname : name ∈ namesOption chosen) :
    name ∈ namesOption pattern := by
  match h with
  | .none => exact hname
  | .some hinner => exact hinner.mem_names hname

theorem mem_namesFields_of_chooses {fields chosen : List (FieldPattern Pattern)}
    (h : List.Forall₂ (FieldPattern.Alike Chooses) fields chosen) (hname : name ∈ namesFields chosen) :
    name ∈ namesFields fields := by
  match h with
  | .nil => exact hname
  | .cons (.intro _ _ hvalue) hrest =>
    rw [namesFields, List.mem_append] at hname ⊢
    exact hname.imp hvalue.mem_names (mem_namesFields_of_chooses hrest)

end

/-! ## Names that are collected -/

theorem mem_names_of_mem_endParts {front back : List Pattern} {rest : Option Pattern}
    {items : List Term} {run sub : Term} {part : Pattern}
    (h : (part, sub) ∈ endParts front rest back items run) (hname : name ∈ part.names) :
    name ∈ namesAll front ++ namesOption rest ++ namesAll back := by
  rw [List.mem_append, List.mem_append]
  rcases mem_endParts h with ⟨hpart | hpart, -⟩ | ⟨hpart, -⟩
  · exact .inl (.inl (mem_namesAll.2 ⟨part, hpart, hname⟩))
  · exact .inr (mem_namesAll.2 ⟨part, hpart, hname⟩)
  · exact .inl (.inr (mem_namesOption.2 ⟨part, hpart, hname⟩))

/-- The names in a part of a pattern are names in the pattern. -/
theorem mem_names_of_mem_parts {part : Pattern} {sub : Term}
    (h : (part, sub) ∈ pattern.parts decls term) (hname : name ∈ part.names) : name ∈ pattern.names := by
  cases pattern with
  | named other inner =>
    cases List.mem_singleton.1 h
    exact List.mem_cons_of_mem _ hname
  | seq front rest back =>
    rw [parts] at h
    split at h
    · exact mem_names_of_mem_endParts h hname
    · cases h
  | chars front rest back =>
    rw [parts] at h
    split at h
    · exact mem_names_of_mem_endParts h hname
    · cases h
  | composite fields =>
    rw [parts] at h
    split at h
    · obtain ⟨field, hfield, hselect⟩ := List.mem_filterMap.1 h
      obtain ⟨value, -, heq⟩ := Option.map_eq_some_iff.1 hselect
      cases heq
      exact mem_namesFields.2 ⟨field, hfield, hname⟩
    · cases h
  | apply head args =>
    rw [parts] at h
    split at h
    · exact mem_namesAll.2 ⟨part, (List.of_mem_zip h).1, hname⟩
    · cases h
  | function k receiver params result =>
    rw [parts] at h
    split at h
    · simp only [names, List.mem_append]
      rcases List.mem_append.1 h with h | h
      · obtain ⟨inner, hinner, heq⟩ := List.mem_map.1 h
        cases heq
        exact .inl (.inl (mem_namesOption.2 ⟨part, Option.mem_toList.1 hinner, hname⟩))
      · rcases List.mem_cons.1 h with heq | h
        · cases heq
          exact .inl (.inr hname)
        · cases List.mem_singleton.1 h
          exact .inr hname
    · cases h
  | any | bind _ | literal _ | kind _ | fits _ | alt _ | text _ => cases h

/-- What a pattern collects itself is collected under names that stand in it. -/
theorem mem_names_of_mem_own {collected : Term} (h : (name, collected) ∈ pattern.own decls term) :
    name ∈ pattern.names := by
  cases pattern with
  | bind other | named other inner =>
    cases List.mem_singleton.1 h
    exact List.mem_cons_self
  | text segments =>
    obtain ⟨_, _, _, -, hcut, hrun, -⟩ := exists_cut_of_mem_own h
    rw [names, ← Segment.map_fst_of_cut? hcut]
    exact List.mem_map_of_mem hrun
  | _ => cases h

theorem Collects.mem_names {collected : Term} (h : Collects decls pattern term name collected) :
    name ∈ pattern.names := by
  obtain ⟨inner, target, hvisits, hown⟩ := h
  induction hvisits with
  | here pattern term => exact mem_names_of_mem_own hown
  | inside hpart _ ih => exact mem_names_of_mem_parts hpart (ih hown)

/-- A match binds nothing under a name that does not stand in the pattern. -/
theorem mem_names_of_captures? {captures : Captures}
    (h : pattern.captures? decls term = some captures) (hname : captures.contains name = true) :
    name ∈ pattern.names := by
  obtain ⟨chosen, hchooses, hchosen⟩ := extend?_chooses pattern h
  obtain ⟨bound, hbound⟩ := Option.isSome_iff_exists.1 hname
  exact hchooses.mem_names (collects_of_captures? hchooses.altFree hchosen hbound).mem_names

/-- A match binds every name that all alternatives bind and only names that stand in the pattern, and
exactly the former if there are no alternations. -/
theorem binding_bracketed {captures : Captures} (h : pattern.captures? decls term = some captures) :
    (∀ name ∈ pattern.binders, captures.contains name = true) ∧
      (∀ name, captures.contains name = true → name ∈ pattern.names) ∧
      (pattern.altFree = true → ∀ name, captures.contains name = true ↔ name ∈ pattern.binders) := by
  refine ⟨contains_of_captures? h, fun _ => mem_names_of_captures? h, fun halt name => ?_⟩
  refine ⟨fun hname => ?_, contains_of_captures? h name⟩
  rw [← names_of_altFree pattern halt]
  exact mem_names_of_captures? h hname

/-- A pair or a text that ends in a mark, in front of anything else. -/
def pairOrMark : Pattern :=
  head (.alt [tuple [.bind "key", .bind "value"],
    .named "key" (.text [.run (some "stem"), .literal ["!"]])]) (.bind "rest")

/-- A match of the pair binds one name more than all matches do, and one name of the pattern is
left out. -/
theorem binding_pairOrMark :
    ∃ captures, pairOrMark.captures? ∅ (.seq [.seq [.int 1, .int 2], .int 3]) = some captures ∧
      pairOrMark.binders = ["key", "rest"] ∧ captures.contains "value" = true ∧
      captures.contains "stem" = false ∧
      (∀ name ∈ pairOrMark.binders, captures.contains name = true) ∧
      ∀ name, captures.contains name = true → name ∈ ["key", "value", "key", "stem", "rest"] := by
  have hmatches : (pairOrMark.captures? ∅ (.seq [.seq [.int 1, .int 2], .int 3])).map
      (fun captures => (captures.contains "value", captures.contains "stem")) =
        some (true, false) := by decide +kernel
  obtain ⟨captures, hcaptures, hpair⟩ := Option.map_eq_some_iff.1 hmatches
  obtain ⟨hvalue, hstem⟩ := Prod.mk.inj hpair
  obtain ⟨hbinds, hnames, -⟩ := binding_bracketed hcaptures
  exact ⟨captures, hcaptures, rfl, hvalue, hstem, hbinds, hnames⟩

end Reshape.Pattern
