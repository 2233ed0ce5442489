import Reshape.Term.Basic

/-!
# Induction on terms

Terms are made of lists, fields and options of terms. `Term.parts_induction` gives an
induction hypothesis for every element of a list, the value of every field, and a receiver if
there is one, so that no lemma about terms needs companions about lists of them, and
`Term.children_induction` does the same for all sorts of terms at once.
-/

namespace Reshape.Term

variable {P : Term → Prop}

/-- What holds of a term if it holds of its parts, holds of every term. -/
@[elab_as_elim, induction_eliminator]
theorem parts_induction
    (seq : ∀ items, (∀ item ∈ items, P item) → P (.seq items))
    (text : ∀ content, P (.text content))
    (composite : ∀ entries : List (Entry Term), (∀ entry ∈ entries, P entry.value) →
      P (.composite entries))
    (atom : ∀ value, P (.atom value))
    (apply : ∀ head args, (∀ arg ∈ args, P arg) → P (.apply head args))
    (function : ∀ kind receiver params result, (∀ term ∈ receiver, P term) →
      (∀ param ∈ params, P param) → P result → P (.function kind receiver params result))
    (ref : ∀ name, P (.ref name)) (term : Term) : P term := by
  refine @Term.rec P (fun items => ∀ item ∈ items, P item)
    (fun entries => ∀ entry ∈ entries, P entry.value) (fun receiver => ∀ term ∈ receiver, P term)
    (fun entry => P entry.value) seq text composite atom apply function ref ?_ ?_ ?_ ?_ ?_ ?_ ?_ term
  · exact fun _ hnone => nomatch hnone
  · exact fun item rest hitem hrest => List.forall_mem_cons.2 ⟨hitem, hrest⟩
  · exact fun _ hnone => nomatch hnone
  · exact fun entry rest hentry hrest => List.forall_mem_cons.2 ⟨hentry, hrest⟩
  · exact fun _ hnone => nomatch hnone
  · exact fun term hterm other hother => Option.some.inj hother ▸ hterm
  · exact fun key value modifiers hvalue => hvalue

/-- What holds of a term if it holds of the terms directly below it, holds of every term. -/
@[elab_as_elim]
theorem children_induction (step : ∀ term : Term, (∀ part ∈ term.children, P part) → P term)
    (term : Term) : P term := by
  induction term with
  | seq items ih => exact step _ ih
  | composite entries ih => exact step _ (List.forall_mem_map.2 ih)
  | apply head args ih => exact step _ ih
  | function kind receiver params result ihr ihps iht =>
    refine step _ fun part hpart => ?_
    simp only [children, List.mem_append, List.mem_singleton, Option.mem_toList] at hpart
    rcases hpart with (hpart | hpart) | rfl
    · exact ihr part hpart
    · exact ihps part hpart
    · exact iht
  | text | atom | ref => exact step _ (List.forall_mem_nil _)

end Reshape.Term
