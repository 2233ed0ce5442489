import Reshape.Rule.Equality
import Reshape.Term.Digest
import Std.Data.TreeMap

/-!
# Memo

Results of reductions, kept under the rule and the input. A rule counts with all
its arms, so rules that share a name and differ in an arm share no results.

Records stand in buckets under a number computed from the rule's name and the
input (`Memo.bucketOf`), so that few of them are compared when one is looked up.
What is found was recorded for an equal rule and an equal input
(`exists_of_get?`).
-/

namespace Reshape

/-- One known result. -/
structure MemoRecord where
  rule : Rule
  input : Term
  output : Term

/-- Whether the record is about a rule and an input. -/
def MemoRecord.isFor (record : MemoRecord) (rule : Rule) (input : Term) : Bool :=
  record.input == input && record.rule == rule

/-- Known results, one for each pair of a rule and an input. -/
structure Memo where
  buckets : Std.TreeMap Nat (List MemoRecord) := ∅
  deriving Inhabited

namespace Memo

instance : EmptyCollection Memo := ⟨{}⟩

/-- The bucket for a rule and an input. -/
def bucketOf (rule : Rule) (input : Term) : Nat :=
  Digest.mixText input.digest rule.name

/-- The records of a bucket. -/
def bucket (memo : Memo) (number : Nat) : List MemoRecord := memo.buckets.getD number []

def size (memo : Memo) : Nat := memo.buckets.foldl (fun n _ records => n + records.length) 0

def isEmpty (memo : Memo) : Bool := memo.buckets.isEmpty

/-- The known result of a rule on an input. -/
def get? (memo : Memo) (rule : Rule) (input : Term) : Option Term :=
  ((memo.bucket (bucketOf rule input)).find? (·.isFor rule input)).map (·.output)

/-- The records with a new one: its output goes into the record about the same
rule and input if there is one, else the new record stands at the end. -/
def setRecord (fresh : MemoRecord) : List MemoRecord → List MemoRecord
  | [] => [fresh]
  | record :: rest =>
    if record.isFor fresh.rule fresh.input then { record with output := fresh.output } :: rest
    else record :: setRecord fresh rest

/-- Keeps a result, in place of an earlier one for the same rule and input. -/
def insert (memo : Memo) (rule : Rule) (input output : Term) : Memo :=
  let number := bucketOf rule input
  ⟨memo.buckets.insert number (setRecord ⟨rule, input, output⟩ (memo.bucket number))⟩

theorem bucket_insert (memo : Memo) (rule : Rule) (input output : Term) (number : Nat) :
    (memo.insert rule input output).bucket number =
      if bucketOf rule input = number then setRecord ⟨rule, input, output⟩ (memo.bucket number)
      else memo.bucket number := by
  by_cases h : bucketOf rule input = number
  · subst h
    simp [insert, bucket]
  · simp [insert, bucket, Std.TreeMap.getD_insert, h]

theorem exists_of_get? {memo : Memo} {rule : Rule} {input output : Term}
    (h : memo.get? rule input = some output) :
    ∃ record ∈ memo.bucket (bucketOf rule input),
      record.isFor rule input = true ∧ record.output = output := by
  obtain ⟨record, hfind, rfl⟩ := Option.map_eq_some_iff.1 h
  have hfor : record.isFor rule input = true := by simpa using List.find?_some hfind
  exact ⟨record, List.mem_of_find?_eq_some hfind, hfor, rfl⟩

end Memo

end Reshape
