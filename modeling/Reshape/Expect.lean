import Reshape.Failure
import Reshape.Term.Composite

/-!
# What is expected of terms

What a term holds if it is of the kind that is needed, and the failure if it is
of another kind, or if it contains itself.
-/

namespace Reshape

/-- Accepts a term whose references lead to no cycle. -/
def Declarations.needAcyclic (decls : Declarations) (term : Term) : Except Failure Unit :=
  match decls.cycleIn? term with
  | none => .ok ()
  | some cycle => .error ⟨.ofCycle cycle, []⟩

namespace Term

/-- The elements of a sequence. -/
def needSeq : Term → Except Failure (List Term)
  | .seq items => .ok items
  | other => .error ⟨.needsKind .seq other.kind, []⟩

theorem needSeq_eq_error {term : Term} {failure : Failure} (h : term.needSeq = .error failure) :
    failure = ⟨.needsKind .seq term.kind, []⟩ := by
  cases term <;> cases h <;> rfl

/-- The content of a text. -/
def needText : Term → Except Failure String
  | .text s => .ok s
  | other => .error ⟨.needsKind .text other.kind, []⟩

theorem needText_eq_error {term : Term} {failure : Failure} (h : term.needText = .error failure) :
    failure = ⟨.needsKind .text term.kind, []⟩ := by
  cases term <;> cases h <;> rfl

/-- The fields of a composite. -/
def needComposite : Term → Except Failure Composite
  | .composite fields => .ok fields
  | other => .error ⟨.needsKind .composite other.kind, []⟩

theorem needComposite_eq_error {term : Term} {failure : Failure}
    (h : term.needComposite = .error failure) : failure = ⟨.needsKind .composite term.kind, []⟩ := by
  cases term <;> cases h <;> rfl

/-- The length of a sequence or a text, as a term. -/
def needLength (term : Term) : Except Failure Term :=
  match term.length? with
  | some n => .ok (count n)
  | none => .error ⟨.wrongKind "sequence or text" term.kind, []⟩

theorem needLength_eq_error {term : Term} {failure : Failure} (h : term.needLength = .error failure) :
    failure = ⟨.wrongKind "sequence or text" term.kind, []⟩ := by
  cases term <;> cases h <;> rfl

/-- What a term adds to a text: a text itself, numbers in decimal, and the words
`true` and `false`. -/
def needFragment : Term → Except Failure String
  | .text s => .ok s
  | .atom (.int value) => .ok (toString value.toInt)
  | .atom (.bool true) => .ok "true"
  | .atom (.bool false) => .ok "false"
  | other => .error ⟨.needsKind .text other.kind, []⟩

theorem needFragment_eq_error {term : Term} {failure : Failure}
    (h : term.needFragment = .error failure) : failure = ⟨.needsKind .text term.kind, []⟩ := by
  unfold needFragment at h
  split at h <;> cases h
  rfl

/-- The key under which a mapped field stays: its old one if no key was built,
none if `never` was built. -/
def needKey (old : String) : Option Term → Except Failure (Option String)
  | none => .ok (some old)
  | some (.text s) => .ok (some s)
  | some (.atom (.prim .never)) => .ok none
  | some other => .error ⟨.needsKind .text other.kind, []⟩

theorem needKey_eq_error {old : String} {built : Option Term} {failure : Failure}
    (h : needKey old built = .error failure) :
    ∃ term, built = some term ∧ failure = ⟨.needsKind .text term.kind, []⟩ := by
  unfold needKey at h
  split at h <;> cases h
  exact ⟨_, rfl, rfl⟩

end Term

end Reshape
