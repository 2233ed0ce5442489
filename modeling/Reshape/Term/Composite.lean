import Reshape.Term.Basic

/-!
# Composites

The fields of a composite are a list of entries with distinct keys, in the
order in which the keys first came. `insert` keeps both facts: an entry whose
key is already there takes the place of the old one. `get?_insert` says what is
found afterwards, and `keys_insert` where the keys stand.
-/

namespace Reshape

/-- The fields of a composite, in order. -/
abbrev Composite := List (Entry Term)

namespace Composite

def get? (fields : Composite) (key : String) : Option (Entry Term) :=
  fields.find? (·.key == key)

def contains (fields : Composite) (key : String) : Bool :=
  (fields.get? key).isSome

def keys (fields : Composite) : List String := fields.map (·.key)

/-- Puts an entry in the place of the one with its key, or at the end. -/
def insert (entry : Entry Term) : Composite → Composite
  | [] => [entry]
  | field :: rest =>
    if field.key == entry.key then entry :: rest else field :: insert entry rest

/-- Entries inserted one after another. -/
def ofList (entries : List (Entry Term)) : Composite :=
  entries.foldl (fun fields entry => insert entry fields) []

theorem get?_insert (entry : Entry Term) (fields : Composite) (key : String) :
    get? (insert entry fields) key =
      if entry.key = key then some entry else fields.get? key := by
  induction fields with
  | nil => by_cases h : entry.key = key <;> simp [insert, get?, h]
  | cons field rest ih =>
    unfold get? at ih ⊢
    by_cases hf : field.key = entry.key
    · by_cases h : entry.key = key <;> simp [insert, hf, h]
    · by_cases h : field.key = key
      · subst h
        simp [insert, hf, Ne.symm hf]
      · simp [insert, hf, h, ih]

theorem keys_insert (entry : Entry Term) (fields : Composite) :
    keys (insert entry fields) =
      if entry.key ∈ fields.keys then fields.keys else fields.keys ++ [entry.key] := by
  induction fields with
  | nil => simp [insert, keys]
  | cons field rest ih =>
    unfold keys at ih ⊢
    by_cases hf : field.key = entry.key
    · simp [insert, hf]
    · simp only [insert, beq_iff_eq, hf, if_false, List.map_cons, ih, List.mem_cons,
        Ne.symm hf, false_or]
      split <;> simp

end Composite

end Reshape
