import PathQuery.Proofs.Condition.Formula
/-!
# What stands where in a filter

A place in a filter is reached from the root, one branch at a time. The leaves of the filter's formula are
exactly the conditions that are reached and are no groups, each at its place, so the columns of a filter can
be listed with their places: one for each lookup, however deep it stands.
-/

namespace PathQuery

/-- The condition that is reached from the root by taking the branches of a place. -/
inductive Filter.HasAt (g : Filter) : Place → Condition → Prop
  | root : HasAt g [] (.group g)
  | branch {here : Place} {inner : Filter} {i : Nat} {c : Condition}
    (hgroup : HasAt g here (.group inner)) (hchild : inner.children[i]? = some c) :
    HasAt g (i :: here) c

theorem leaves_subset_of_child (here : Place) (next : Nat) {children : List Condition} {i : Nat} {c : Condition}
    (h : children[i]? = some c) :
    (c.formula ((next + i) :: here)).leaves ⊆ (formulasOfAll here next children).flatMap Formula.leaves := by
  induction children generalizing next i with
  | nil => cases h
  | cons first rest ih =>
    rw [formulasOfAll, List.flatMap_cons]
    cases i with
    | zero =>
      cases h
      exact List.subset_append_left _ _
    | succ i =>
      have hrest := ih (next + 1) h
      rw [Nat.add_right_comm] at hrest
      exact List.subset_append_of_subset_right _ hrest

theorem Filter.HasAt.leaves_subset {g : Filter} {place : Place} {c : Condition} (h : g.HasAt place c) :
    (c.formula place).leaves ⊆ (g.formula []).leaves := by
  induction h with
  | root => exact List.Subset.refl _
  | @branch here inner i c _ hchild ih =>
    -- The group above has the leaves of its branches.
    refine List.Subset.trans ?_ ih
    obtain ⟨connective, children, negated, grouped⟩ := inner
    rw [Condition.formula, Filter.formula, Formula.leaves_group]
    have hleaves := leaves_subset_of_child here 0 hchild
    rwa [Nat.zero_add] at hleaves

section Leaves

variable {g : Filter}

mutual

theorem Condition.hasAt_of_mem_leaves (here : Place) (c : Condition) (h : g.HasAt here c) :
    ∀ leaf ∈ (c.formula here).leaves, g.HasAt leaf.1 leaf.2 := by
  cases c with
  | group inner => exact Filter.hasAt_of_mem_leaves here inner h
  | lookup | raw | everything | nothing =>
    intro leaf hleaf
    cases List.mem_singleton.1 hleaf
    exact h

theorem Filter.hasAt_of_mem_leaves (here : Place) (inner : Filter) (h : g.HasAt here (.group inner)) :
    ∀ leaf ∈ (inner.formula here).leaves, g.HasAt leaf.1 leaf.2 := by
  obtain ⟨connective, children, negated, grouped⟩ := inner
  rw [Filter.formula, Formula.leaves_group]
  refine hasAt_of_mem_branches here 0 children fun i c hchild => ?_
  rw [Nat.zero_add]
  exact .branch h hchild

theorem hasAt_of_mem_branches (here : Place) (next : Nat) (children : List Condition)
    (h : ∀ i c, children[i]? = some c → g.HasAt ((next + i) :: here) c) :
    ∀ leaf ∈ (formulasOfAll here next children).flatMap Formula.leaves, g.HasAt leaf.1 leaf.2 := by
  cases children with
  | nil =>
    intro leaf hleaf
    cases hleaf
  | cons c rest =>
    intro leaf hleaf
    rw [formulasOfAll, List.flatMap_cons, List.mem_append] at hleaf
    rcases hleaf with hleaf | hleaf
    · exact c.hasAt_of_mem_leaves _ (h 0 c rfl) leaf hleaf
    · -- Without its first branch the group is numbered from the next one on.
      refine hasAt_of_mem_branches here (next + 1) rest (fun i c hchild => ?_) leaf hleaf
      rw [Nat.add_right_comm]
      exact h (i + 1) c hchild

end

end Leaves

theorem Filter.lookup_mem_leaves_iff {g : Filter} {place : Place} {l : Lookup} :
    (place, .lookup l) ∈ (g.formula []).leaves ↔ g.HasAt place (.lookup l) := by
  constructor
  · intro hleaf
    exact Filter.hasAt_of_mem_leaves [] g .root _ hleaf
  · intro hat
    exact hat.leaves_subset List.mem_cons_self

/-! ### Lookups with their places -/

/-- The left-hand side of a lookup. -/
def Condition.lhs? : Condition → Option Expr
  | .lookup l => some l.lhs
  | .group _ | .raw _ | .everything | .nothing => none

theorem Condition.lhs?_eq_some_iff {c : Condition} {e : Expr} :
    c.lhs? = some e ↔ ∃ l : Lookup, c = .lookup l ∧ l.lhs = e := by
  cases c with
  | lookup l => simp [lhs?]
  | group | raw | everything | nothing => simp [lhs?]

mutual

theorem Condition.columns_eq_filterMap (here : Place) (c : Condition) :
    c.columns = (c.formula here).leaves.filterMap fun leaf => leaf.2.lhs? := by
  cases c with
  | group g => exact Filter.columns_eq_filterMap here g
  | lookup | raw | everything | nothing => rfl

theorem Filter.columns_eq_filterMap (here : Place) (g : Filter) :
    g.columns = (g.formula here).leaves.filterMap fun leaf => leaf.2.lhs? := by
  obtain ⟨connective, children, negated, grouped⟩ := g
  rw [Filter.formula, Formula.leaves_group]
  exact columnsOfAll_eq_filterMap here 0 children

theorem columnsOfAll_eq_filterMap (here : Place) (next : Nat) (children : List Condition) :
    columnsOfAll children =
      ((formulasOfAll here next children).flatMap Formula.leaves).filterMap fun leaf => leaf.2.lhs? := by
  cases children with
  | nil => rfl
  | cons c rest =>
    rw [columnsOfAll, formulasOfAll, List.flatMap_cons, List.filterMap_append,
      ← c.columns_eq_filterMap, ← columnsOfAll_eq_filterMap here (next + 1) rest]

end

namespace Filter

/-- The left-hand sides of all lookups, from left to right, each with the place of its lookup. -/
def placedColumns (g : Filter) : List (Place × Expr) :=
  (g.formula []).leaves.filterMap fun leaf => leaf.2.lhs?.map (Prod.mk leaf.1)

theorem map_snd_placedColumns (g : Filter) : g.placedColumns.map Prod.snd = g.columns := by
  rw [placedColumns, List.map_filterMap, g.columns_eq_filterMap []]
  refine List.filterMap_congr fun leaf _ => ?_
  rw [Option.map_map]
  exact Option.map_id'

theorem mem_placedColumns_iff {g : Filter} {place : Place} {e : Expr} :
    (place, e) ∈ g.placedColumns ↔ ∃ l : Lookup, g.HasAt place (.lookup l) ∧ l.lhs = e := by
  rw [placedColumns, List.mem_filterMap]
  constructor
  · rintro ⟨⟨there, c⟩, hleaf, hcolumn⟩
    obtain ⟨lhs, hlhs, hpair⟩ := Option.map_eq_some_iff.1 hcolumn
    obtain ⟨l, rfl, rfl⟩ := Condition.lhs?_eq_some_iff.1 hlhs
    cases hpair
    exact ⟨l, lookup_mem_leaves_iff.1 hleaf, rfl⟩
  · rintro ⟨l, hat, rfl⟩
    exact ⟨(place, .lookup l), lookup_mem_leaves_iff.2 hat, rfl⟩

theorem nodup_placedColumns (g : Filter) : (g.placedColumns.map Prod.fst).Nodup := by
  have hplaces := List.pairwise_map.1 (g.places_nodup [])
  rw [placedColumns, List.Nodup, List.pairwise_map, List.pairwise_filterMap]
  refine hplaces.imp fun {leaf other} hne entry hentry entry' hentry' => ?_
  obtain ⟨e, -, rfl⟩ := Option.map_eq_some_iff.1 hentry
  obtain ⟨e', -, rfl⟩ := Option.map_eq_some_iff.1 hentry'
  exact hne

end Filter

end PathQuery
