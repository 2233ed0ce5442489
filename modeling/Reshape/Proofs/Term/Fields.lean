import Mathlib.Data.List.Induction
import Mathlib.Data.List.Nodup
import Mathlib.Data.List.Perm.Subperm
import Reshape.Term.Composite

/-!
# Fields in the order of their keys

The keys of a composite are distinct (`distinct_ofList`), so a field is found under its key
wherever it stands (`Distinct.get?_eq_some_iff`), and the order of the fields is all that sorting by
key forgets (`sortByKey_eq_iff`). Entries that have distinct keys are put together as they are
(`Distinct.ofList_eq`).
-/

namespace Reshape

/-- The fields have one key and the same flags, and their values are alike. -/
structure Entry.Alike (alike : Term → Term → Prop) (x y : Entry Term) : Prop where
  key : x.key = y.key
  value : alike x.value y.value
  modifiers : x.modifiers = y.modifiers

theorem exists_of_rel_left {α β : Type} {r : α → β → Prop} {x : Option α} {y : Option β}
    (h : Option.Rel r x y) {a : α} (ha : a ∈ x) : ∃ b ∈ y, r a b := by
  cases h with
  | none => cases ha
  | some hab =>
    cases ha
    exact ⟨_, rfl, hab⟩

theorem exists_of_rel_right {α β : Type} {r : α → β → Prop} {x : Option α} {y : Option β}
    (h : Option.Rel r x y) {b : β} (hb : b ∈ y) : ∃ a ∈ x, r a b := by
  cases h with
  | none => cases hb
  | some hab =>
    cases hb
    exact ⟨_, rfl, hab⟩

namespace Composite

variable {fields xs ys : Composite} {key : String} {field : Entry Term} {f : Entry Term → Entry Term}

/-- The entries put into fields one after another. -/
def insertAll (fields entries : Composite) : Composite :=
  entries.foldl (fun fields entry => Composite.insert entry fields) fields

/-- No key stands twice. -/
def Distinct (fields : Composite) : Prop := fields.keys.Nodup

/-- The fields in the order of their keys. -/
def sortByKey (fields : Composite) : Composite := fields.mergeSort fun a b => decide (a.key ≤ b.key)

theorem sortByKey_perm (fields : Composite) : fields.sortByKey.Perm fields :=
  List.mergeSort_perm _ _

theorem pairwise_sortByKey (fields : Composite) : fields.sortByKey.Pairwise (·.key ≤ ·.key) := by
  have hsorted : fields.sortByKey.Pairwise fun a b => decide (a.key ≤ b.key) = true := by
    refine List.pairwise_mergeSort (fun a b c hab hbc => ?_) (fun a b => ?_) fields
    · exact decide_eq_true (String.le_trans (of_decide_eq_true hab) (of_decide_eq_true hbc))
    · rw [Bool.or_eq_true, decide_eq_true_iff, decide_eq_true_iff]
      exact String.le_total a.key b.key
  exact hsorted.imp fun h => of_decide_eq_true h

theorem sortByKey_of_pairwise (h : fields.Pairwise (·.key ≤ ·.key)) : fields.sortByKey = fields :=
  List.mergeSort_of_pairwise (h.imp fun hle => decide_eq_true hle)

theorem forall_mem_insert {Q : Entry Term → Prop} {entry : Entry Term} (hentry : Q entry)
    (h : ∀ field ∈ fields, Q field) : ∀ field ∈ fields.insert entry, Q field := by
  induction fields with
  | nil => exact List.forall_mem_singleton.2 hentry
  | cons first rest ih =>
    rw [List.forall_mem_cons] at h
    rw [Composite.insert]
    split
    · exact List.forall_mem_cons.2 ⟨hentry, h.2⟩
    · exact List.forall_mem_cons.2 ⟨h.1, ih h.2⟩

/-- What is found is a field with that key. -/
theorem mem_of_get? (h : fields.get? key = some field) : field ∈ fields ∧ field.key = key := by
  have hkey := List.find?_some h
  exact ⟨List.mem_of_find?_eq_some h, beq_iff_eq.1 hkey⟩

theorem get?_eq_none_iff : fields.get? key = none ↔ key ∉ fields.keys := by
  simp [get?, keys]

theorem mem_keys_iff : key ∈ fields.keys ↔ ∃ field, fields.get? key = some field := by
  rw [← Option.ne_none_iff_exists', ne_eq, get?_eq_none_iff, not_not]

/-! ## Entries changed under their keys -/

theorem keys_map (hf : ∀ entry, (f entry).key = entry.key) (fields : Composite) :
    keys (fields.map f) = fields.keys := by
  simp [keys, hf]

theorem get?_map (hf : ∀ entry, (f entry).key = entry.key) (fields : Composite) (key : String) :
    get? (fields.map f) key = (fields.get? key).map f := by
  have hkey : (fun entry : Entry Term => entry.key == key) ∘ f = fun entry => entry.key == key :=
    funext fun entry => congrArg (· == key) (hf entry)
  rw [get?, List.find?_map, hkey, get?]

/-! ## Distinct keys -/

namespace Distinct

theorem map (h : fields.Distinct) (hf : ∀ entry, (f entry).key = entry.key) :
    Distinct (fields.map f) := by
  rwa [Distinct, keys_map hf]

theorem perm (h : xs.Distinct) (hperm : xs.Perm ys) : ys.Distinct :=
  (hperm.map Entry.key).nodup_iff.1 h

theorem sublist (h : ys.Distinct) (hsub : xs.keys.Sublist ys.keys) : xs.Distinct :=
  List.Nodup.sublist hsub h

theorem nodup (h : xs.Distinct) : xs.Nodup := List.Nodup.of_map Entry.key h

/-- An entry that is put in keeps the keys distinct. -/
theorem insert (h : fields.Distinct) (entry : Entry Term) : Distinct (Composite.insert entry fields) := by
  rw [Distinct, keys_insert]
  by_cases hold : entry.key ∈ fields.keys
  · rw [if_pos hold]
    exact h
  · rw [if_neg hold, List.nodup_append]
    refine ⟨h, List.nodup_singleton _, fun key hkey key' hkey' heq => hold ?_⟩
    rw [← List.mem_singleton.1 hkey', ← heq]
    exact hkey

theorem eq_of_key {a b : Entry Term} (h : fields.Distinct) (ha : a ∈ fields) (hb : b ∈ fields)
    (hkey : a.key = b.key) : a = b :=
  List.inj_on_of_nodup_map h ha hb hkey

/-- A field is found under its key. -/
theorem get?_eq_some_iff (h : fields.Distinct) :
    fields.get? key = some field ↔ field ∈ fields ∧ field.key = key := by
  constructor
  · exact mem_of_get?
  · rintro ⟨hmem, rfl⟩
    cases hget : fields.get? field.key with
    | none =>
      have hne := List.find?_eq_none.1 hget field hmem
      exact absurd (beq_self_eq_true field.key) hne
    | some found =>
      have hkey := List.find?_some hget
      rw [h.eq_of_key (List.mem_of_find?_eq_some hget) hmem (beq_iff_eq.1 hkey)]

/-- What is found does not depend on the order. -/
theorem get?_perm (h : xs.Distinct) (hperm : xs.Perm ys) (key : String) :
    xs.get? key = ys.get? key := by
  apply Option.ext
  intro field
  show xs.get? key = some field ↔ ys.get? key = some field
  rw [h.get?_eq_some_iff, (h.perm hperm).get?_eq_some_iff, hperm.mem_iff]

/-- Composites are permutations of each other exactly if they have the same field under each key. -/
theorem perm_iff_get? (hxs : xs.Distinct) (hys : ys.Distinct) :
    xs.Perm ys ↔ ∀ key, xs.get? key = ys.get? key := by
  refine ⟨fun hperm => hxs.get?_perm hperm, fun hget => ?_⟩
  refine (List.perm_ext_iff_of_nodup hxs.nodup hys.nodup).2 fun field => ?_
  have hfound : ∀ {fields : Composite}, fields.Distinct →
      (field ∈ fields ↔ fields.get? field.key = some field) := fun h => by
    rw [h.get?_eq_some_iff, and_iff_left rfl]
  rw [hfound hxs, hfound hys, hget]

/-- Sorted by key, distinct fields come in one order only. -/
theorem eq_of_perm (h : xs.Distinct) (hxs : xs.Pairwise (·.key ≤ ·.key))
    (hys : ys.Pairwise (·.key ≤ ·.key)) (hperm : xs.Perm ys) : xs = ys := by
  refine hperm.eq_of_pairwise (fun a b ha hb hab hba => ?_) hxs hys
  exact h.eq_of_key ha (hperm.mem_iff.2 hb) (String.le_antisymm hab hba)

end Distinct

/-! ## Entries put together -/

theorem insert_of_notMem {entry : Entry Term} (h : entry.key ∉ fields.keys) :
    insert entry fields = fields ++ [entry] := by
  induction fields with
  | nil => rfl
  | cons field rest ih =>
    simp only [keys, List.map_cons, List.mem_cons, not_or] at h
    rw [insert, if_neg (by simpa using Ne.symm h.1), ih h.2]
    rfl

/-- Fields with distinct keys are put together in order. -/
theorem insertAll_eq_append {entries : Composite} (h : Distinct (fields ++ entries)) :
    fields.insertAll entries = fields ++ entries := by
  induction entries generalizing fields with
  | nil => exact (List.append_nil fields).symm
  | cons entry rest ih =>
    have hnew : entry.key ∉ fields.keys := by
      intro hmem
      rw [Distinct, keys, List.map_append, List.nodup_append] at h
      exact h.2.2 entry.key hmem entry.key List.mem_cons_self rfl
    rw [List.append_cons] at h ⊢
    rw [insertAll, List.foldl_cons, insert_of_notMem hnew]
    exact ih h

/-- Distinct fields are put together as they are. -/
theorem Distinct.ofList_eq (h : fields.Distinct) : ofList fields = fields :=
  insertAll_eq_append h

/-- Entries that are put into fields come after all those that the fields were put together from. -/
theorem insertAll_ofList (entries more : List (Entry Term)) :
    insertAll (ofList entries) more = ofList (entries ++ more) :=
  List.foldl_append.symm

/-- Fields that are put together entry by entry have distinct keys. -/
theorem distinct_ofList (entries : List (Entry Term)) : (ofList entries).Distinct := by
  have hall : ∀ {fields : Composite}, fields.Distinct →
      Distinct (entries.foldl (fun fields entry => insert entry fields) fields) := by
    induction entries with
    | nil => exact id
    | cons entry rest ih => exact fun h => ih (h.insert entry)
  exact hall List.nodup_nil

/-- The keys stand in the order in which they first come. -/
theorem keys_ofList (entries : List (Entry Term)) :
    (ofList entries).keys = (entries.map (·.key)).eraseDups := by
  induction entries using List.reverseRecOn with
  | nil => rfl
  | append_singleton entries entry ih =>
    have hlast : ofList (entries ++ [entry]) = insert entry (ofList entries) := List.foldl_append
    rw [hlast, keys_insert, ih, List.map_append, List.map_singleton, List.eraseDups_append]
    generalize entries.map (·.key) = keys
    by_cases hold : entry.key ∈ keys
    · rw [if_pos (List.mem_eraseDups.2 hold)]
      simp [List.removeAll, hold]
    · rw [if_neg (mt List.mem_eraseDups.1 hold)]
      simp [List.removeAll, hold, List.eraseDups_cons]

/-- Of entries with one key the last one is found. -/
theorem get?_ofList (entries : List (Entry Term)) (key : String) :
    (ofList entries).get? key = entries.reverse.find? (·.key == key) := by
  have hall : ∀ fields : Composite,
      get? (entries.foldl (fun fields entry => Composite.insert entry fields) fields) key =
        (entries.reverse.find? (·.key == key)).or (fields.get? key) := by
    induction entries with
    | nil => exact fun fields => rfl
    | cons entry rest ih =>
      intro fields
      rw [List.foldl_cons, ih, get?_insert, List.reverse_cons, List.find?_append, Option.or_assoc]
      congr 1
      by_cases hkey : entry.key = key <;> simp [hkey]
  rw [ofList, hall]
  exact Option.or_none

theorem mem_of_mem_ofList {entries : List (Entry Term)} (h : field ∈ ofList entries) :
    field ∈ entries := by
  have hget := (distinct_ofList entries).get?_eq_some_iff.2 ⟨h, rfl⟩
  rw [get?_ofList] at hget
  exact List.mem_reverse.1 (List.mem_of_find?_eq_some hget)

/-- For every entry there is one with its key. -/
theorem exists_mem_ofList {entries : List (Entry Term)} (h : field ∈ entries) :
    ∃ last ∈ ofList entries, last.key = field.key := by
  cases hget : (ofList entries).get? field.key with
  | none =>
    rw [get?_ofList, List.find?_eq_none] at hget
    exact absurd (beq_self_eq_true field.key) (hget field (List.mem_reverse.2 h))
  | some last => exact ⟨last, (distinct_ofList entries).get?_eq_some_iff.1 hget⟩

/-- Sorting by key forgets the order of the fields and nothing else. -/
theorem sortByKey_eq_iff (h : xs.Distinct) : xs.sortByKey = ys.sortByKey ↔ xs.Perm ys := by
  constructor
  · intro heq
    exact (xs.sortByKey_perm.symm.trans (List.Perm.of_eq heq)).trans ys.sortByKey_perm
  · intro hperm
    refine (h.perm xs.sortByKey_perm.symm).eq_of_perm xs.pairwise_sortByKey ys.pairwise_sortByKey ?_
    exact (xs.sortByKey_perm.trans hperm).trans ys.sortByKey_perm.symm

end Composite

end Reshape
