import Reshape.Failure

/-!
# Captures

The terms that a match binds to names. A name keeps the first term bound to it:
binding it again succeeds only with an equal term and changes nothing.
-/

namespace Reshape

/-- Terms under the names that captured them. -/
structure Captures where
  bindings : Table String Term := ∅
  deriving Inhabited

namespace Captures

/-- The name under which a key stands while a template maps fields. -/
def keyName : String := "key"

/-- The name under which a value stands while a template maps fields. -/
def valueName : String := "value"

instance : EmptyCollection Captures := ⟨{}⟩

def size (captures : Captures) : Nat := captures.bindings.size

def get? (captures : Captures) (name : String) : Option Term := captures.bindings.get? name

def contains (captures : Captures) (name : String) : Bool := captures.bindings.contains name

/-- Bindings in order; of equal names the last one counts. -/
def ofList (bindings : List (String × Term)) : Captures :=
  ⟨Table.ofList bindings⟩

/-- Binds a name to a term, unless another term is already bound to it. -/
def bind? (captures : Captures) (name : String) (term : Term) : Option Captures :=
  match captures.get? name with
  | some bound => if bound == term then some captures else none
  | none => some ⟨captures.bindings.set name term⟩

theorem get?_set (captures : Captures) (name : String) (term : Term) (other : String) :
    get? ⟨captures.bindings.set name term⟩ other =
      if name = other then some term else captures.get? other := by
  simp [get?, Table.get?_set]

/-- A name that was bound stays bound to an equal term, and nothing changes; another name is added. -/
theorem bind?_cases {captures extended : Captures} {name : String} {term : Term}
    (h : captures.bind? name term = some extended) :
    (∃ bound, captures.get? name = some bound ∧ (bound == term) = true ∧ extended = captures) ∨
      captures.get? name = none ∧
        ∀ other, extended.get? other = if name = other then some term else captures.get? other := by
  unfold bind? at h
  split at h
  · rename_i bound hbound
    split at h <;> cases h
    exact .inl ⟨bound, hbound, ‹_›, rfl⟩
  · cases h
    exact .inr ⟨‹_›, captures.get?_set name term⟩

/-- What was bound stays bound. -/
theorem get?_of_bind? {captures extended : Captures} {name other : String} {term bound : Term}
    (h : captures.bind? name term = some extended) (hget : captures.get? other = some bound) :
    extended.get? other = some bound := by
  rcases bind?_cases h with ⟨_, -, -, rfl⟩ | ⟨hnone, hext⟩
  · exact hget
  · rw [hext, if_neg, hget]
    rintro rfl
    cases hnone.symm.trans hget

/-- The name is bound to the term or to one that is equal. -/
theorem exists_of_bind? {captures extended : Captures} {name : String} {term : Term}
    (h : captures.bind? name term = some extended) :
    ∃ bound, extended.get? name = some bound ∧ (bound = term ∨ (bound == term) = true) := by
  rcases bind?_cases h with ⟨bound, hget, hbeq, rfl⟩ | ⟨-, hext⟩
  · exact ⟨bound, hget, .inr hbeq⟩
  · exact ⟨term, by rw [hext, if_pos rfl], .inl rfl⟩

/-- The term bound to a name that a template relies on. -/
def lookup (captures : Captures) (name : String) : Except Failure Term :=
  match captures.get? name with
  | some term => .ok term
  | none => .error ⟨.unboundCapture name, []⟩

theorem lookup_eq_error {captures : Captures} {name : String} {failure : Failure}
    (h : captures.lookup name = .error failure) :
    captures.get? name = none ∧ failure = ⟨.unboundCapture name, []⟩ := by
  unfold lookup at h
  split at h <;> cases h
  exact ⟨‹_›, rfl⟩

/-- The captures inside a mapped field: its key and its value are bound as well,
in place of outer captures of these names. -/
def forField (captures : Captures) (key : String) (value : Term) : Captures :=
  ⟨(captures.bindings.set keyName (.text key)).set valueName value⟩

theorem get?_forField (captures : Captures) (key : String) (value : Term) (name : String) :
    (captures.forField key value).get? name =
      if valueName = name then some value
      else if keyName = name then some (.text key)
      else captures.get? name := by
  simp [forField, get?, Table.get?_set]

/-- Whether two sets of captures bind the same names to equal terms. -/
def beq (a b : Captures) : Bool :=
  a.size == b.size &&
    a.bindings.entries.all fun (name, term) =>
      match b.get? name with
      | some other => term == other
      | none => false

instance : BEq Captures := ⟨beq⟩

end Captures

end Reshape
