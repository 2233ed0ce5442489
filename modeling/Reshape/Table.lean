/-!
# Tables

Finite maps as association lists that hold each key once. Setting a key that is
already there keeps the stored key and replaces its value. What a table holds
under a key is `get?`; `get?_set` says what setting does to it.
-/

namespace Reshape

/-- A finite map from keys to values, in the order in which the keys came. -/
structure Table (κ ν : Type) where
  entries : List (κ × ν) := []
  deriving Inhabited

namespace Table

variable {κ ν : Type}

instance : EmptyCollection (Table κ ν) := ⟨{}⟩

def size (t : Table κ ν) : Nat := t.entries.length

def keys (t : Table κ ν) : List κ := t.entries.map (·.1)

variable [BEq κ]

def get? (t : Table κ ν) (key : κ) : Option ν :=
  (t.entries.find? (·.1 == key)).map (·.2)

def contains (t : Table κ ν) (key : κ) : Bool := (t.get? key).isSome

/-- The entries with `value` under `key`: in the place of that key's entry if
there is one, else at the end. -/
def setEntry (key : κ) (value : ν) : List (κ × ν) → List (κ × ν)
  | [] => [(key, value)]
  | (k, v) :: rest =>
    if k == key then (k, value) :: rest else (k, v) :: setEntry key value rest

def set (t : Table κ ν) (key : κ) (value : ν) : Table κ ν :=
  ⟨setEntry key value t.entries⟩

/-- The table of pairs taken in order; of equal keys the last one counts. -/
def ofList (pairs : List (κ × ν)) : Table κ ν :=
  pairs.foldl (fun t (key, value) => t.set key value) ∅

@[simp]
theorem get?_empty (key : κ) : (∅ : Table κ ν).get? key = none := rfl

theorem find?_setEntry [LawfulBEq κ] (key : κ) (value : ν) (entries : List (κ × ν)) (k : κ) :
    ((setEntry key value entries).find? (·.1 == k)).map (·.2) =
      if key == k then some value else (entries.find? (·.1 == k)).map (·.2) := by
  induction entries with
  | nil => by_cases hk : key == k <;> simp [setEntry, hk]
  | cons entry rest ih =>
    obtain ⟨k', v'⟩ := entry
    by_cases hkey : k' = key
    · subst hkey
      by_cases hk : k' == k <;> simp [setEntry, hk]
    · by_cases hk : k' = k
      · subst hk
        simp [setEntry, hkey, Ne.symm hkey]
      · simp [setEntry, hkey, hk, ih]

/-- Setting a key changes what is under that key and nothing else. -/
theorem get?_set [LawfulBEq κ] (t : Table κ ν) (key : κ) (value : ν) (k : κ) :
    (t.set key value).get? k = if key == k then some value else t.get? k :=
  find?_setEntry key value t.entries k

end Table

end Reshape
