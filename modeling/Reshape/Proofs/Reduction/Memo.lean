import Reshape.Proofs.Reduction.Results
import Reshape.Proofs.Rule.Normal

/-!
# Correct memos

A record of a memo may be found for another rule and input than it was made for, where
fields stand in another order. It is correct if the normal forms agree: the rule yields the
output on the input, all three in normal form (`MemoRecord.Correct`). What is looked up in
a memo of correct records is correct for the rule and the input that it is looked up for
(`Memo.Correct.get?`), and recording a correct result keeps the memo correct
(`Memo.Correct.insert`).
-/

namespace Reshape

variable {decls : Declarations} {rule : Rule} {input output : Term} {memo : Memo}

/-- The normal form of the rule yields the normal form of the output. -/
structure MemoRecord.Correct (decls : Declarations) (record : MemoRecord) : Prop where
  rule : record.rule.Plain
  input : record.input.WellKeyed
  output : record.output.WellKeyed
  yields : ∃ cost, record.rule.normal.Yields decls.normal record.input.normal record.output.normal cost

def Memo.Correct (decls : Declarations) (memo : Memo) : Prop :=
  ∀ number, ∀ record ∈ memo.bucket number, record.Correct decls

/-- If there is a memo in the session, it is correct. -/
def Session.Correct (decls : Declarations) (s : Session) : Prop := ∀ memo ∈ s.memo, memo.Correct decls

/-- A record is found for rules and inputs with the same normal forms only. -/
theorem MemoRecord.Correct.normal_eq {record : MemoRecord} (h : record.Correct decls)
    (hrule : rule.Plain) (hinput : input.WellKeyed) (hfor : record.isFor rule input = true) :
    record.rule.normal = rule.normal ∧ record.input.normal = input.normal := by
  rw [MemoRecord.isFor, Bool.and_eq_true] at hfor
  exact ⟨Rule.normal_eq_of_beq record.rule h.rule hrule hfor.2,
    (Term.beq_iff h.input hinput).1 hfor.1⟩

namespace Memo

theorem bucket_empty (number : Nat) : bucket ∅ number = [] := Std.TreeMap.getD_emptyc

/-- The first record of a memo is found for every rule and input that it is about. -/
theorem get?_insert_empty {rule rule' : Rule} {input input' output : Term}
    (hbucket : bucketOf rule input = bucketOf rule' input')
    (hfor : MemoRecord.isFor ⟨rule, input, output⟩ rule' input' = true) :
    (insert ∅ rule input output).get? rule' input' = some output := by
  rw [get?, bucket_insert, if_pos hbucket, bucket_empty, setRecord, List.find?, hfor]
  rfl

theorem correct_empty (decls : Declarations) : Correct decls ∅ := by
  intro number record hmem
  rw [bucket_empty] at hmem
  cases hmem

theorem mem_setRecord {fresh record : MemoRecord} {records : List MemoRecord}
    (h : record ∈ setRecord fresh records) :
    record = fresh ∨ record ∈ records ∨ ∃ old ∈ records,
      old.isFor fresh.rule fresh.input = true ∧ record = { old with output := fresh.output } := by
  induction records with
  | nil => exact .inl (List.mem_singleton.1 h)
  | cons old rest ih =>
    rw [setRecord] at h
    split at h
    · rename_i hfor
      rcases List.mem_cons.1 h with rfl | hmem
      · exact .inr (.inr ⟨old, List.mem_cons_self, hfor, rfl⟩)
      · exact .inr (.inl (List.mem_cons_of_mem _ hmem))
    · rcases List.mem_cons.1 h with rfl | hmem
      · exact .inr (.inl List.mem_cons_self)
      · rcases ih hmem with heq | hold | ⟨old', hold, hfor, heq⟩
        · exact .inl heq
        · exact .inr (.inl (List.mem_cons_of_mem _ hold))
        · exact .inr (.inr ⟨old', List.mem_cons_of_mem _ hold, hfor, heq⟩)

/-- After a result is recorded, a record is the new one, an old one, or one whose output it replaces. -/
theorem mem_bucket_insert {number : Nat} {record : MemoRecord}
    (h : record ∈ (memo.insert rule input output).bucket number) :
    record = ⟨rule, input, output⟩ ∨ record ∈ memo.bucket number ∨
      ∃ old ∈ memo.bucket number, old.isFor rule input = true ∧ record = { old with output } := by
  rw [bucket_insert] at h
  split at h
  · exact mem_setRecord h
  · exact .inr (.inl h)

theorem Correct.get? (h : memo.Correct decls) (hrule : rule.Plain) (hinput : input.WellKeyed)
    (hget : memo.get? rule input = some output) :
    output.WellKeyed ∧ ∃ cost, rule.normal.Yields decls.normal input.normal output.normal cost := by
  obtain ⟨record, hmem, hfor, rfl⟩ := exists_of_get? hget
  have hrecord := h _ record hmem
  obtain ⟨hsame, hsame'⟩ := hrecord.normal_eq hrule hinput hfor
  rw [← hsame, ← hsame']
  exact ⟨hrecord.output, hrecord.yields⟩

theorem Correct.insert (h : memo.Correct decls)
    (hfresh : MemoRecord.Correct decls ⟨rule, input, output⟩) :
    (memo.insert rule input output).Correct decls := by
  intro number record hmem
  rcases mem_bucket_insert hmem with rfl | hold | ⟨old, hold, hfor, rfl⟩
  · exact hfresh
  · exact h number record hold
  · -- the old record is about the same rule and input, up to the order of fields
    have hrecord := h number old hold
    obtain ⟨hsame, hsame'⟩ := hrecord.normal_eq hfresh.rule hfresh.input hfor
    refine ⟨hrecord.rule, hrecord.input, hfresh.output, ?_⟩
    rw [hsame, hsame']
    exact hfresh.yields

end Memo

namespace Session.Correct

variable {s s' : Session}

/-- Only the memo counts. -/
theorem of_memo_eq (h : s.Correct decls) (hmemo : s'.memo = s.memo) : s'.Correct decls := by
  rw [Session.Correct, hmemo]
  exact h

/-- What is known from the memo of the session is correct. -/
theorem known (h : s.Correct decls) (hrule : rule.Plain) (hinput : input.WellKeyed)
    (hknown : s.memo.bind (·.get? rule input) = some output) :
    output.WellKeyed ∧ ∃ cost, rule.normal.Yields decls.normal input.normal output.normal cost := by
  obtain ⟨memo, hmemo, hget⟩ := Option.bind_eq_some_iff.1 hknown
  exact (h memo hmemo).get? hrule hinput hget

theorem remember (h : s.Correct decls) (hfresh : MemoRecord.Correct decls ⟨rule, input, output⟩) :
    Correct decls { s with memo := s.memo.map (·.insert rule input output) } := by
  intro memo hmem
  obtain ⟨old, hold, rfl⟩ := Option.map_eq_some_iff.1 hmem
  exact (h old hold).insert hfresh

end Session.Correct

end Reshape
