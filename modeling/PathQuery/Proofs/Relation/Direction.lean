import PathQuery.Proofs.Relation.Paths
/-!
# The table that stands alone

Of the joins of a tree one table stands alone, and the others are joined to it one after another. It need not
be the root: a join by the primary key of the table joined to is followed the other way, and then the root
lies above. If the table that stands alone is the root, a walk from it enters every alias by the join that
defines the alias, and no join is left to be followed the other way.
-/

namespace PathQuery

/-- The join is by the primary key of the alias it is joined to. -/
def Join.isReverse (j : Join) : Bool :=
  j.parent.isSome && j.columns.any fun pair => pair.1 == primaryKey

theorem Join.isReverse_of_alone {j : Join} (h : j.parent = none) : j.isReverse = false := by
  simp [Join.isReverse, h]

theorem Join.Refers.bottom_eq {j : Join} {l : Link} (h : j.Refers l) (hforward : j.isReverse = false) :
    l.bottom = j.name := by
  cases h with
  | forward => rfl
  | reverse => simp [Join.isReverse] at hforward

theorem Join.Refers.top_eq {j : Join} {l : Link} (h : j.Refers l) (hreverse : j.isReverse) :
    l.top = j.name := by
  cases h with
  | forward hkey => simp [Join.isReverse, hkey] at hreverse
  | reverse => rfl

namespace RootedAt

variable {joins : List Join} {root : String}

theorem join_unique (h : RootedAt joins root) {j k : Join} (hj : j ∈ joins) (hk : k ∈ joins)
    (hname : j.name = k.name) : j = k :=
  List.inj_on_of_nodup_map h.distinct hj hk hname

/-- Walks from a table that stands alone enter every alias by the join that defines it. -/
theorem forward_of_walk {base : Join} (h : RootedAt joins base.name) (hbase : base ∈ joins)
    (halone : base.parent = none) {walk : List Nat} {name : String} (hwalk : Walk joins base.name walk name) :
    ∀ j ∈ joins, j.name = name → j.isReverse = false := by
  induction hwalk with
  | stay =>
    intro j hj hname
    rw [h.join_unique hj hbase hname]
    exact Join.isReverse_of_alone halone
  | @step walk i l hwalk hlead ih =>
    obtain ⟨k, hi, hrefers⟩ := hlead
    have hk := List.mem_of_getElem? hi
    -- Followed the other way, the join would define the alias that the walk has just entered.
    have hforward : k.isReverse = false := by
      cases hreverse : k.isReverse with
      | false => rfl
      | true => exact hreverse.symm.trans (ih k hk (hrefers.top_eq hreverse).symm)
    intro j hj hname
    rw [h.join_unique hj hk (hname.trans (hrefers.bottom_eq hforward))]
    exact hforward

/-- The only table that stands alone is the root exactly when no join is followed the other way. -/
theorem root_eq_base_iff (h : RootedAt joins root) {base : Join} (hbase : base ∈ joins)
    (halone : base.parent = none) (hsingle : ∀ j ∈ joins, j.parent = none → j = base) :
    root = base.name ↔ ∀ j ∈ joins, j.isReverse = false := by
  constructor
  · rintro rfl j hj
    obtain ⟨walk, hwalk⟩ := (h.walk j.name (List.mem_map_of_mem hj)).exists
    exact h.forward_of_walk hbase halone hwalk j hj rfl
  · intro hforward
    obtain ⟨j, hj, rfl⟩ := List.mem_map.1 h.root_mem
    cases hparent : j.parent with
    | none => rw [hsingle j hj hparent]
    | some parent =>
      -- The join that defines the root would lead to it.
      obtain ⟨l, hrefers, -⟩ := h.refers hj (hparent ▸ rfl)
      obtain ⟨i, hi⟩ := List.mem_iff_getElem?.1 hj
      have hbottom := hrefers.bottom_eq (hforward j hj)
      exact absurd hbottom (h.branching.root_free i l ⟨j, hi, hrefers⟩)

end RootedAt

/-- The root of a tree that is not empty is one of the joined tables. -/
theorem Tree.exists_root {joins : List Join} {t : Tree} (h : Tree.resolve joins = .ok t) (hjoins : joins ≠ []) :
    ∃ root ∈ joins, t.root = some root.name ∧ t.rootTable? = some root.table ∧ RootedAt joins root.name := by
  obtain ⟨links, root, hchecked⟩ := (Tree.resolve_eq_ok_iff hjoins).1 h
  obtain ⟨path, hpath⟩ := exists_path? h hchecked.root_mem
  obtain ⟨table, htable⟩ := exists_rootTable? h hpath
  have hknown : t.table? root = some table := by
    rw [rootTable?, hchecked.root_eq] at htable
    exact htable
  obtain ⟨j, hj, rfl, rfl⟩ := exists_join_of_table? h hknown
  exact ⟨j, hj, hchecked.root_eq, htable, hchecked.rootedAt⟩

end PathQuery
