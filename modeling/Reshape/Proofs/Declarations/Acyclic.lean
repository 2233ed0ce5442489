import Mathlib.Data.List.Nodup
import Mathlib.Logic.Relation
import Reshape.Declarations.Cycle
import Reshape.Expect
import Reshape.Proofs.Term.References

/-!
# Cycles among declarations

The search for cycles rejects a list of names exactly if opening them one after another could
go on forever (`Declarations.cycleAmong?_eq_none_iff`). For what it accepts, the names that it
went through are in an order in which every name stands before those that its shape refers
to (`Declarations.Ordered`), so no chain of references is longer than the table.

The levels of the search are never used up: its path holds distinct declared names, and there is
one level more than there are names (`Declarations.length_le_size`).
-/

namespace Reshape

namespace Declarations

variable {decls : Declarations} {levels : Nat} {path done done' names : List String}

/-- The shape of the second name refers to the first. -/
def Opens (decls : Declarations) (inner name : String) : Prop :=
  ∃ shape, decls.get? name = some shape ∧ inner ∈ shape.refs

/-- No chain of references from the name goes on forever. -/
def Grounded (decls : Declarations) (name : String) : Prop := Acc decls.Opens name

theorem grounded_of_undeclared {name : String} (h : decls.get? name = none) : decls.Grounded name := by
  refine ⟨name, fun inner hopens => ?_⟩
  obtain ⟨shape, hshape, -⟩ := hopens
  cases h.symm.trans hshape

/-- A grounded name does not reach itself. -/
theorem Grounded.not_transGen {name : String} (h : decls.Grounded name) :
    ¬ Relation.TransGen decls.Opens name name := by
  intro hself
  have hacc : Acc (Relation.TransGen decls.Opens) name := Acc.transGen h
  clear h
  induction hacc with
  | intro name _ ih => exact ih name hself hself

theorem Grounded.inner {name inner : String} (h : decls.Grounded name)
    (hopens : decls.Opens inner name) : decls.Grounded inner :=
  h.inv hopens

theorem mem_keys_of_get? {name : String} (h : decls.get? name ≠ none) : name ∈ decls.shapes.keys := by
  obtain ⟨entry, hentry⟩ := Option.ne_none_iff_exists'.1 (mt Option.map_eq_none_iff.2 h)
  have hkey : entry.1 = name := by simpa using List.find?_some hentry
  exact hkey ▸ List.mem_map_of_mem (List.mem_of_find?_eq_some hentry)

/-- There are no more distinct declared names than the table has entries. -/
theorem length_le_size (hpath : path.Nodup) (hdeclared : ∀ name ∈ path, decls.get? name ≠ none) :
    path.length ≤ decls.size := by
  have hsubset : path ⊆ decls.shapes.keys := fun name hmem => mem_keys_of_get? (hdeclared name hmem)
  have hlength := (List.subperm_of_subset hpath hsubset).length_le
  rwa [Table.keys, List.length_map] at hlength

/-! ## What the search accepts -/

/-- Distinct declared names, each of them before the declared names that its shape refers to. -/
inductive Ordered (decls : Declarations) : List String → Prop where
  | nil : Ordered decls []
  | cons {name : String} {shape : Term} {done : List String} :
      decls.get? name = some shape → name ∉ done →
      (∀ inner ∈ shape.refs, decls.get? inner ≠ none → inner ∈ done) → Ordered decls done →
      Ordered decls (name :: done)

theorem Ordered.nodup (h : Ordered decls done) : done.Nodup := by
  induction h with
  | nil => exact .nil
  | cons _ hnew _ _ ih => exact List.nodup_cons.2 ⟨hnew, ih⟩

theorem Ordered.declared (h : Ordered decls done) : ∀ name ∈ done, decls.get? name ≠ none := by
  induction h with
  | nil => exact List.forall_mem_nil _
  | cons hget _ _ _ ih => exact List.forall_mem_cons.2 ⟨by rw [hget]; exact nofun, ih⟩

theorem Ordered.length_le (h : Ordered decls done) : done.length ≤ decls.size :=
  length_le_size h.nodup h.declared

theorem Ordered.grounded (h : Ordered decls done) : ∀ name ∈ done, decls.Grounded name := by
  induction h with
  | nil => exact List.forall_mem_nil _
  | @cons name shape done hget _ hinner _ ih =>
    refine List.forall_mem_cons.2 ⟨⟨name, fun inner hopens => ?_⟩, ih⟩
    obtain ⟨shape', hget', hmem⟩ := hopens
    cases hget.symm.trans hget'
    by_cases hdeclared : decls.get? inner = none
    · exact grounded_of_undeclared hdeclared
    · exact ih inner (hinner inner hmem hdeclared)

/-- A search along a path of distinct declared names that has a level left for every other
name of the table. -/
structure OnPath (decls : Declarations) (levels : Nat) (path : List String) : Prop where
  nodup : path.Nodup
  declared : ∀ name ∈ path, decls.get? name ≠ none
  levels : decls.size + 1 ≤ path.length + levels

theorem onPath_start (decls : Declarations) : decls.OnPath (decls.size + 1) [] :=
  ⟨.nil, List.forall_mem_nil _, Nat.le_of_eq (Nat.zero_add _).symm⟩

theorem OnPath.levels_ne_zero (h : decls.OnPath levels path) : levels ≠ 0 := by
  have := length_le_size h.nodup h.declared
  have := h.levels
  omega

theorem OnPath.cons {name : String} {shape : Term} (h : decls.OnPath (levels + 1) path)
    (hget : decls.get? name = some shape) (hnew : name ∉ path) : decls.OnPath levels (name :: path) := by
  refine ⟨List.nodup_cons.2 ⟨hnew, h.nodup⟩, List.forall_mem_cons.2 ⟨?_, h.declared⟩, ?_⟩
  · rw [hget]
    exact nofun
  · have := h.levels
    rw [List.length_cons]
    omega

/-- What the search does with one name. -/
def open? (decls : Declarations) (levels : Nat) (path done : List String) (name : String) :
    Except Cycle (List String) :=
  match decls.get? name with
  | none => .ok done
  | some shape =>
    if done.contains name then .ok done
    else if path.contains name then .error ⟨name⟩
    else do
      let done ← decls.search levels (name :: path) done shape.refs
      return name :: done

theorem search_succ (decls : Declarations) (levels : Nat) (path done names : List String) :
    decls.search (levels + 1) path done names =
      names.foldlM (fun done name => decls.open? levels path done name) done := rfl

/-- A name is passed over if it is not declared or already done; else it is done after those that
its shape refers to. -/
theorem open?_eq_ok {name : String} (h : decls.open? levels path done name = .ok done') :
    ((decls.get? name = none ∨ name ∈ done) ∧ done' = done) ∨
      ∃ shape inner, decls.get? name = some shape ∧ name ∉ done ∧ name ∉ path ∧
        decls.search levels (name :: path) done shape.refs = .ok inner ∧ done' = name :: inner := by
  unfold open? at h
  cases hget : decls.get? name with
  | none =>
    rw [hget] at h
    cases h
    exact .inl ⟨.inl rfl, rfl⟩
  | some shape =>
    rw [hget] at h
    dsimp only at h
    split at h
    · rename_i hdone
      cases h
      exact .inl ⟨.inr (List.contains_iff_mem.1 hdone), rfl⟩
    · rename_i hdone
      split at h
      · cases h
      · rename_i hpath
        rw [List.contains_iff_mem] at hdone hpath
        cases hinner : decls.search levels (name :: path) done shape.refs with
        | error cycle =>
          rw [hinner] at h
          cases h
        | ok inner =>
          rw [hinner] at h
          cases h
          exact .inr ⟨shape, inner, rfl, hdone, hpath, hinner, rfl⟩

/-- What a search is allowed to give: names in order, the old ones among them, none on the
path, and all declared names that were asked for. -/
structure Found (decls : Declarations) (path done names done' : List String) : Prop where
  ordered : Ordered decls done'
  kept : done ⊆ done'
  offPath : ∀ name ∈ path, name ∉ done'
  asked : ∀ name ∈ names, decls.get? name ≠ none → name ∈ done'

theorem open?_found {name : String} (hpath : decls.OnPath (levels + 1) path)
    (hdone : Ordered decls done) (hoff : ∀ name ∈ path, name ∉ done)
    (hsearch : ∀ {path names done'}, decls.OnPath levels path → (∀ name ∈ path, name ∉ done) →
      decls.search levels path done names = .ok done' → decls.Found path done names done')
    (h : decls.open? levels path done name = .ok done') : decls.Found path done [name] done' := by
  rcases open?_eq_ok h with ⟨hname, rfl⟩ | ⟨shape, inner, hget, hnew, hnotPath, hinner, rfl⟩
  · exact ⟨hdone, List.Subset.refl _, hoff, List.forall_mem_singleton.2 hname.resolve_left⟩
  · have hfound := hsearch (hpath.cons hget hnotPath) (List.forall_mem_cons.2 ⟨hnew, hoff⟩) hinner
    obtain ⟨hnameOff, hoff'⟩ := List.forall_mem_cons.1 hfound.offPath
    refine ⟨.cons hget hnameOff hfound.asked hfound.ordered,
      fun other hother => List.mem_cons_of_mem _ (hfound.kept hother), fun other hother => ?_,
      List.forall_mem_singleton.2 fun _ => List.mem_cons_self⟩
    rw [List.mem_cons, not_or]
    exact ⟨fun heq => hnotPath (heq ▸ hother), hoff' other hother⟩

/-- What an accepting search gives. -/
theorem search_found (hpath : decls.OnPath levels path) (hdone : Ordered decls done)
    (hoff : ∀ name ∈ path, name ∉ done) (h : decls.search levels path done names = .ok done') :
    decls.Found path done names done' := by
  -- The shape that a name is opened for is searched with one level fewer, along a longer path;
  -- the names beside it are searched with what is done by then.
  induction levels generalizing path done names done' with
  | zero => exact absurd rfl hpath.levels_ne_zero
  | succ levels ih =>
    rw [search_succ] at h
    induction names generalizing done with
    | nil =>
      cases h
      exact ⟨hdone, List.Subset.refl _, hoff, List.forall_mem_nil _⟩
    | cons name rest ihrest =>
      rw [List.foldlM_cons] at h
      cases hopen : decls.open? levels path done name with
      | error cycle =>
        rw [hopen] at h
        cases h
      | ok opened =>
        rw [hopen] at h
        have hfirst := open?_found hpath hdone hoff (fun hp ho hs => ih hp hdone ho hs) hopen
        have hrest := ihrest hfirst.ordered hfirst.offPath h
        refine ⟨hrest.ordered, List.Subset.trans hfirst.kept hrest.kept, hrest.offPath, ?_⟩
        refine List.forall_mem_cons.2 ⟨fun hget => ?_, hrest.asked⟩
        exact hrest.kept (hfirst.asked name List.mem_cons_self hget)

/-! ## What the search rejects -/

/-- The search fails at a name that is met on its own path, or below a name that it opens. -/
theorem open?_eq_error {name : String} {cycle : Cycle}
    (h : decls.open? levels path done name = .error cycle) :
    ∃ shape, decls.get? name = some shape ∧
      (name ∈ path ∧ cycle = ⟨name⟩ ∨
        decls.search levels (name :: path) done shape.refs = .error cycle) := by
  unfold open? at h
  cases hget : decls.get? name with
  | none =>
    rw [hget] at h
    cases h
  | some shape =>
    rw [hget] at h
    dsimp only at h
    refine ⟨shape, rfl, ?_⟩
    split at h
    · cases h
    · split at h
      · rename_i hpath
        cases h
        exact .inl ⟨List.contains_iff_mem.1 hpath, rfl⟩
      · cases hinner : decls.search levels (name :: path) done shape.refs with
        | error inner =>
          rw [hinner] at h
          cases h
          exact .inr rfl
        | ok inner =>
          rw [hinner] at h
          cases h

/-- A search that fails has found a declared name that the names lead to and that is opened on the
way to itself, if each of the names is opened on the way to those of the path. -/
theorem search_eq_error {cycle : Cycle}
    (hpath : ∀ name ∈ names, ∀ outer ∈ path, Relation.TransGen decls.Opens name outer)
    (h : decls.search levels path done names = .error cycle) :
    decls.get? cycle.name ≠ none ∧
      (∃ start ∈ names, Relation.ReflTransGen decls.Opens cycle.name start) ∧
      Relation.TransGen decls.Opens cycle.name cycle.name := by
  induction levels generalizing path done names with
  | zero => cases h
  | succ levels ih =>
    rw [search_succ] at h
    induction names generalizing done with
    | nil => cases h
    | cons name rest ihrest =>
      rw [List.forall_mem_cons] at hpath
      rw [List.foldlM_cons] at h
      cases hopen : decls.open? levels path done name with
      | ok opened =>
        rw [hopen] at h
        obtain ⟨hdeclared, ⟨start, hstart, hleads⟩, hself⟩ := ihrest hpath.2 h
        exact ⟨hdeclared, ⟨start, List.mem_cons_of_mem _ hstart, hleads⟩, hself⟩
      | error found =>
        rw [hopen] at h
        cases h
        obtain ⟨shape, hget, ⟨hmem, rfl⟩ | hsearch⟩ := open?_eq_error hopen
        · -- The name stands on its own path, so it is opened on the way to itself.
          exact ⟨by rw [hget]; exact nofun, ⟨name, List.mem_cons_self, .refl⟩, hpath.1 name hmem⟩
        · have hinner : ∀ inner ∈ shape.refs, decls.Opens inner name :=
            fun inner hmem => ⟨shape, hget, hmem⟩
          have hlonger : ∀ inner ∈ shape.refs, ∀ outer ∈ name :: path,
              Relation.TransGen decls.Opens inner outer :=
            fun inner hmem => List.forall_mem_cons.2 ⟨.single (hinner inner hmem),
              fun outer houter => .head (hinner inner hmem) (hpath.1 outer houter)⟩
          obtain ⟨hdeclared, ⟨start, hstart, hleads⟩, hself⟩ := ih hlonger hsearch
          exact ⟨hdeclared, ⟨name, List.mem_cons_self, hleads.tail (hinner start hstart)⟩, hself⟩

/-! ## The checks -/

theorem cycleAmong?_eq_none (h : decls.cycleAmong? names = none) :
    ∃ done, Ordered decls done ∧ ∀ name ∈ names, decls.get? name ≠ none → name ∈ done := by
  unfold cycleAmong? at h
  split at h
  · rename_i done hsearch
    have hfound := search_found (onPath_start decls) .nil (List.forall_mem_nil _) hsearch
    exact ⟨done, hfound.ordered, hfound.asked⟩
  · cases h

/-- The name of a cycle that is found is declared, the names lead to it, and it leads to itself. -/
theorem cycleAmong?_eq_some {cycle : Cycle} (h : decls.cycleAmong? names = some cycle) :
    decls.get? cycle.name ≠ none ∧
      (∃ start ∈ names, Relation.ReflTransGen decls.Opens cycle.name start) ∧
      Relation.TransGen decls.Opens cycle.name cycle.name := by
  unfold cycleAmong? at h
  split at h
  · cases h
  · rename_i found hsearch
    cases h
    exact search_eq_error (fun _ _ => List.forall_mem_nil _) hsearch

/-- Grounded names lead to grounded names only. -/
theorem Grounded.of_reflTransGen {name inner : String} (h : decls.Grounded name)
    (hleads : Relation.ReflTransGen decls.Opens inner name) : decls.Grounded inner := by
  induction hleads using Relation.ReflTransGen.head_induction_on with
  | refl => exact h
  | head hopens _ ih => exact ih.inner hopens

/-- No cycle is found among names exactly if all of them are grounded. -/
theorem cycleAmong?_eq_none_iff :
    decls.cycleAmong? names = none ↔ ∀ name ∈ names, decls.Grounded name := by
  constructor
  · intro h name hname
    obtain ⟨done, hordered, hasked⟩ := cycleAmong?_eq_none h
    by_cases hget : decls.get? name = none
    · exact grounded_of_undeclared hget
    · exact hordered.grounded name (hasked name hname hget)
  · intro h
    cases hcycle : decls.cycleAmong? names with
    | none => rfl
    | some cycle =>
      obtain ⟨-, ⟨start, hstart, hleads⟩, hself⟩ := cycleAmong?_eq_some hcycle
      exact absurd hself ((h start hstart).of_reflTransGen hleads).not_transGen

/-- A term leads to no cycle exactly if all its references are grounded. -/
theorem cycleIn?_eq_none_iff {term : Term} :
    decls.cycleIn? term = none ↔ ∀ name ∈ term.refs, decls.Grounded name :=
  cycleAmong?_eq_none_iff

/-- The table has no cycle exactly if every name is grounded. -/
theorem cycle?_eq_none_iff : decls.cycle? = none ↔ ∀ name, decls.Grounded name := by
  rw [cycle?, cycleAmong?_eq_none_iff]
  refine ⟨fun h name => ?_, fun h name _ => h name⟩
  by_cases hget : decls.get? name = none
  · exact grounded_of_undeclared hget
  · exact h name (List.mem_mergeSort.2 (mem_keys_of_get? hget))

/-! ## Terms that lead to no cycle -/

/-- The term leads to no cycle, so it may be reduced. -/
def Accepts (decls : Declarations) (term : Term) : Prop := decls.needAcyclic term = .ok ()

section

variable {name : String} {shape term part : Term}

theorem needAcyclic_eq_ok_iff : decls.needAcyclic term = .ok () ↔ decls.cycleIn? term = none := by
  unfold needAcyclic
  split <;> simp_all

/-- In a table without a cycle no term leads to one. -/
theorem cycleIn?_of_cycle? (h : decls.cycle? = none) (term : Term) : decls.cycleIn? term = none :=
  cycleIn?_eq_none_iff.2 fun name _ => cycle?_eq_none_iff.1 h name

theorem cycleIn?_shape (h : decls.cycleIn? (.ref name) = none) (hget : decls.get? name = some shape) :
    decls.cycleIn? shape = none := by
  rw [cycleIn?_eq_none_iff] at h ⊢
  exact fun inner hinner => (h name List.mem_cons_self).inner ⟨shape, hget, hinner⟩

theorem cycleIn?_follow (h : decls.cycleIn? term = none) (hops : Nat) :
    decls.cycleIn? (decls.follow hops term) = none := by
  induction hops generalizing term with
  | zero => exact h
  | succ hops ih =>
    cases term with
    | ref name =>
      rw [follow]
      cases hget : decls.get? name with
      | none => exact h
      | some shape => exact ih (cycleIn?_shape h hget)
    | _ => exact h

/-- What stands behind a term leads to no cycle if the term leads to none. -/
theorem cycleIn?_resolve (h : decls.cycleIn? term = none) : decls.cycleIn? (decls.resolve term) = none :=
  cycleIn?_follow h _

/-- A term that is no reference leads to no cycle exactly if none of its parts does. -/
theorem cycleIn?_iff_children (hterm : term.kind ≠ .ref) :
    decls.cycleIn? term = none ↔ ∀ part ∈ term.children, decls.cycleIn? part = none := by
  simp only [cycleIn?_eq_none_iff, Term.mem_refs_iff_children hterm, forall_exists_index, and_imp]
  exact ⟨fun h part hpart name hname => h name part hpart hname,
    fun h name part hpart hname => h part hpart name hname⟩

theorem cycleIn?_of_mem_children (h : decls.cycleIn? term = none) (hpart : part ∈ term.children) :
    decls.cycleIn? part = none :=
  (cycleIn?_iff_children (Term.kind_ne_ref_of_mem_children hpart)).1 h part hpart

end

end Declarations

end Reshape
