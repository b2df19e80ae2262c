import PathQuery.Proofs.Relation.Checks
import PathQuery.Proofs.Relation.Name
/-!
# Resolution accepts exactly the rooted trees

A list of joins has a relationship tree exactly when it is empty or when its aliases are distinct, its
joins are foreign keys with a relationship name that refer to a primary key, every alias joined to is
defined, and from some alias, the root, there is exactly one walk to every alias, itself included.

The conditions are stated on the joins as they are given. In one direction the rounds reach every alias,
because they reach as many as there are, and no two links out of a reached alias meet; so walks are
unique. In the other, unique walks leave no two links that meet, and the rounds go through.
-/

namespace PathQuery

/-- The joins form a tree of relationships with the given root. -/
structure RootedAt (joins : List Join) (root : String) : Prop where
  distinct : (joins.map Join.name).Nodup
  single : ∀ j ∈ joins, j.parent.isSome → ∃ parentColumn ownColumn,
    j.columns = [(parentColumn, ownColumn)] ∧
      (parentColumn = primaryKey ∧ ownColumn ≠ primaryKey ∧ Nameable ownColumn ∨
        parentColumn ≠ primaryKey ∧ ownColumn = primaryKey ∧ Nameable parentColumn)
  defined : ∀ j ∈ joins, ∀ parent, j.parent = some parent → parent ∈ joins.map Join.name
  root_mem : root ∈ joins.map Join.name
  walk : ∀ name ∈ joins.map Join.name, ∃! walk, Walk joins root walk name

/-! ### Joins one by one -/

theorem Join.exists_refers_iff {j : Join} (hparent : j.parent.isSome) :
    (∃ l, j.Refers l ∧ Nameable l.key) ↔ ∃ parentColumn ownColumn,
      j.columns = [(parentColumn, ownColumn)] ∧
        (parentColumn = primaryKey ∧ ownColumn ≠ primaryKey ∧ Nameable ownColumn ∨
          parentColumn ≠ primaryKey ∧ ownColumn = primaryKey ∧ Nameable parentColumn) := by
  constructor
  · rintro ⟨l, ⟨hkey⟩ | ⟨hkey⟩, hname⟩
    · exact ⟨_, _, rfl, .inr ⟨hkey, rfl, hname⟩⟩
    · exact ⟨_, _, rfl, .inl ⟨rfl, hkey, hname⟩⟩
  · obtain ⟨parent, table, columns, name⟩ := j
    obtain ⟨parent, rfl⟩ := Option.isSome_iff_exists.1 hparent
    rintro ⟨parentColumn, ownColumn, rfl, ⟨rfl, hkey, hname⟩ | ⟨hkey, rfl, hname⟩⟩
    · exact ⟨_, .reverse hkey, hname⟩
    · exact ⟨_, .forward hkey, hname⟩

/-! ### From a resolution to walks -/

namespace Resolve

/-- Rounds that start at the root find what they expand. -/
theorem Explored.contains_iff {links : List Link} {root : String} {found : Dict String}
    {done : List String} (h : Explored links [root] (Dict.empty.insert root "") found done)
    (name : String) : found.contains name ↔ name ∈ done := by
  rw [h.found_iff, h.done_iff, Dict.contains_insert, Dict.contains_empty, Bool.or_false, beq_iff_eq,
    List.mem_singleton]

/-- The rounds find the aliases that walks from the root lead to. -/
theorem expand_contains_iff {joins : List Join} {links : List (Option Link)} {root : String}
    {paths : Dict String} (hlinks : joins.mapM Join.link? = .ok links)
    (hpaths : expand (links.filterMap id) [root] (Dict.empty.insert root "") = .ok paths) (name : String) :
    paths.contains name ↔ ∃ walk, Walk joins root walk name := by
  constructor
  · have hwalk : ∀ name path, paths.get? name = some path → ∃ walk, Walk joins root walk name := by
      refine expand_paths hpaths ?_ ?_ ?_
      · rintro l hl - - ⟨walk, hwalk⟩ -
        obtain ⟨i, hlead⟩ := (mem_links_iff hlinks).1 hl
        exact ⟨walk ++ [i], .step hwalk hlead⟩
      · simp [Dict.contains_insert]
      · intro name path hpath
        rw [Dict.get?_insert] at hpath
        split at hpath
        · rename_i hname
          exact ⟨[], hname ▸ .stay⟩
        · cases hpath
    intro hname
    obtain ⟨path, hpath⟩ := Dict.contains_iff_exists.1 hname
    exact hwalk name path hpath
  · rintro ⟨walk, hwalk⟩
    obtain ⟨done, hdone⟩ := expand_ok hpaths
    rw [hdone.contains_iff]
    induction hwalk with
    | stay => exact (hdone.done_iff _).2 (.inl (List.mem_singleton_self root))
    | step _ hlead ih =>
      exact (hdone.done_iff _).2 (.inr ⟨_, (mem_links_iff hlinks).2 ⟨_, hlead⟩, ih, rfl⟩)

namespace Checked

variable {joins : List Join} {links : List (Option Link)} {root : String} {t : Tree}

theorem tables_contains_iff (h : Checked joins links root t) (name : String) :
    t.tables.contains name ↔ name ∈ joins.map Join.name :=
  tables_empty_contains_iff h.tables_ok name

theorem root_top (h : Checked joins links root t) : root ∈ tops joins links := by
  have hmem := List.mem_singleton_self root
  rw [← h.roots] at hmem
  exact (List.mem_filter.1 hmem).1

theorem root_mem (h : Checked joins links root t) : root ∈ joins.map Join.name :=
  (h.tables_contains_iff root).1 (h.known root (.inl h.root_top))

theorem ends_mem (h : Checked joins links root t) {i : Nat} {l : Link} (hlead : LeadsAt joins i l) :
    l.top ∈ joins.map Join.name ∧ l.bottom ∈ joins.map Join.name := by
  rw [← h.tables_contains_iff, ← h.tables_contains_iff]
  exact ⟨h.known _ (.inl ((mem_tops h.links_ok).2 (.inl ⟨i, l, hlead, rfl⟩))),
    h.known _ (.inr ((mem_bottoms h.links_ok).2 ⟨i, l, hlead, rfl⟩))⟩

/-- The rounds reach no more than the aliases, and as many: they reach them all. -/
theorem paths_contains_iff (h : Checked joins links root t) (name : String) :
    t.paths.contains name ↔ name ∈ joins.map Join.name := by
  obtain ⟨done, hdone⟩ := expand_ok h.paths_ok
  have hsub : ∀ name, t.paths.contains name → t.tables.contains name := by
    intro name hname
    rw [hdone.contains_iff, hdone.done_iff, List.mem_singleton] at hname
    rw [h.tables_contains_iff]
    rcases hname with rfl | ⟨l, hl, -, rfl⟩
    · exact h.root_mem
    · obtain ⟨i, hlead⟩ := (mem_links_iff h.links_ok).1 hl
      exact (h.ends_mem hlead).2
  rw [← h.tables_contains_iff]
  exact ⟨hsub name, Dict.contains_of_size_eq hsub h.size_eq⟩

/-- The turn of every alias comes, so all links are followed. -/
theorem explored (h : Checked joins links root t) :
    ∃ done, Explored (links.filterMap id) [root] (Dict.empty.insert root "") t.paths done ∧
      ∀ l ∈ links.filterMap id, l.top ∈ done := by
  obtain ⟨done, hdone⟩ := expand_ok h.paths_ok
  refine ⟨done, hdone, fun l hl => ?_⟩
  obtain ⟨i, hlead⟩ := (mem_links_iff h.links_ok).1 hl
  rw [← hdone.contains_iff, h.paths_contains_iff]
  exact (h.ends_mem hlead).1

theorem branching (h : Checked joins links root t) : Branching joins root := by
  obtain ⟨done, hdone, htop⟩ := h.explored
  refine ⟨fun i l hlead hbottom => ?_, (nodup_bottoms_iff h.links_ok).1 ?_⟩
  · have hl := (mem_links_iff h.links_ok).2 ⟨i, hlead⟩
    have hfresh := hdone.fresh l hl (htop l hl)
    simp [hbottom, Dict.contains_insert] at hfresh
  · rw [List.Nodup, List.pairwise_map]
    exact hdone.apart.imp_of_mem fun hl hm hapart => hapart (htop _ hl) (htop _ hm)

theorem nameable (h : Checked joins links root t) {i : Nat} {l : Link} (hlead : LeadsAt joins i l) :
    Nameable l.key := by
  obtain ⟨done, hdone, htop⟩ := h.explored
  have hl := (mem_links_iff h.links_ok).2 ⟨i, hlead⟩
  exact nameable_iff.2 (hdone.named l hl (htop l hl))

theorem exists_walk (h : Checked joins links root t) {name : String}
    (hname : name ∈ joins.map Join.name) : ∃ walk, Walk joins root walk name :=
  (expand_contains_iff h.links_ok h.paths_ok name).1 ((h.paths_contains_iff name).2 hname)

theorem rootedAt (h : Checked joins links root t) : RootedAt joins root where
  distinct := (Resolve.tables_ok h.tables_ok).1
  single j hj hparent := by
    obtain ⟨i, l, hlead, hrefers⟩ := exists_leadsAt h.links_ok hj hparent
    exact (Join.exists_refers_iff hparent).1 ⟨l, hrefers, h.nameable hlead⟩
  defined j hj parent hparent := by
    rw [← h.tables_contains_iff]
    exact h.known parent ((mem_ends_iff h.links_ok).2 (.inr ⟨j, hj, hparent⟩))
  root_mem := h.root_mem
  walk name hname := by
    obtain ⟨walk, hwalk⟩ := h.exists_walk hname
    exact ⟨walk, hwalk, fun other hother => hother.unique h.branching hwalk⟩

end Checked

end Resolve

/-! ### From walks to a resolution -/

namespace RootedAt

variable {joins : List Join} {root : String}

theorem refers (h : RootedAt joins root) {j : Join} (hj : j ∈ joins) (hparent : j.parent.isSome) :
    ∃ l, j.Refers l ∧ Nameable l.key :=
  (Join.exists_refers_iff hparent).2 (h.single j hj hparent)

theorem links_ok (h : RootedAt joins root) : ∃ links, joins.mapM Join.link? = .ok links := by
  refine exists_links_of_refers fun j hj hparent => ?_
  obtain ⟨l, hrefers, -⟩ := h.refers hj hparent
  exact ⟨l, hrefers⟩

theorem ends_mem (h : RootedAt joins root) {i : Nat} {l : Link} (hlead : LeadsAt joins i l) :
    l.top ∈ joins.map Join.name ∧ l.bottom ∈ joins.map Join.name := by
  obtain ⟨j, hi, hrefers⟩ := hlead
  have hj := List.mem_of_getElem? hi
  have hname : j.name ∈ joins.map Join.name := List.mem_map_of_mem hj
  obtain ⟨parent, hparent, ⟨htop, hbottom⟩ | ⟨htop, hbottom⟩⟩ := hrefers.ends
  · rw [htop, hbottom]
    exact ⟨h.defined j hj parent hparent, hname⟩
  · rw [htop, hbottom]
    exact ⟨hname, h.defined j hj parent hparent⟩

theorem nameable (h : RootedAt joins root) {i : Nat} {l : Link} (hlead : LeadsAt joins i l) :
    Nameable l.key := by
  obtain ⟨j, hi, hrefers⟩ := hlead
  obtain ⟨parent, hparent, -⟩ := hrefers.ends
  obtain ⟨m, hm, hname⟩ := h.refers (List.mem_of_getElem? hi) (hparent ▸ rfl)
  rw [hrefers.unique hm]
  exact hname

theorem branching (h : RootedAt joins root) : Branching joins root := by
  refine .of_unique_walks (fun i l hlead => ?_) (h.walk root h.root_mem)
  exact ⟨(h.walk _ (h.ends_mem hlead).1).exists, h.walk _ (h.ends_mem hlead).2⟩

/-- The root stands above another alias or alone. -/
theorem root_top (h : RootedAt joins root) {links : List (Option Link)}
    (hlinks : joins.mapM Join.link? = .ok links) : root ∈ Resolve.tops joins links := by
  have hend := (Resolve.mem_ends_iff hlinks).2 (.inl h.root_mem)
  refine hend.resolve_right fun hbottom => ?_
  obtain ⟨i, l, hlead, hroot⟩ := (Resolve.mem_bottoms hlinks).1 hbottom
  exact h.branching.root_free i l hlead hroot

theorem defined_of_mem (h : RootedAt joins root) {links : List (Option Link)}
    (hlinks : joins.mapM Join.link? = .ok links) {name : String}
    (hname : name ∈ Resolve.tops joins links ∨ name ∈ Resolve.bottoms links) :
    name ∈ joins.map Join.name := by
  rcases (Resolve.mem_ends_iff hlinks).1 hname with hname | ⟨j, hj, hparent⟩
  · exact hname
  · exact h.defined j hj name hparent

theorem roots_eq (h : RootedAt joins root) {links : List (Option Link)}
    (hlinks : joins.mapM Join.link? = .ok links) :
    ((Resolve.tops joins links).filter fun name => !(Resolve.bottoms links).contains name) =
      [root] := by
  have hnodup : (Resolve.tops joins links).Nodup := distinctNames_nodup _
  rw [← List.perm_singleton,
    List.perm_ext_iff_of_nodup (hnodup.filter _) (List.nodup_singleton root)]
  intro name
  rw [List.mem_filter, Bool.not_eq_true', List.contains_eq_mem, decide_eq_false_iff_not,
    Resolve.mem_bottoms hlinks, List.mem_singleton]
  constructor
  · rintro ⟨htop, hbottom⟩
    have hname := h.defined_of_mem hlinks (.inl htop)
    -- The last step of a walk to any other alias would lead there.
    obtain ⟨walk, hwalk⟩ := (h.walk name hname).exists
    cases hwalk with
    | stay => rfl
    | step _ hlead => exact absurd ⟨_, _, hlead, rfl⟩ hbottom
  · rintro rfl
    refine ⟨h.root_top hlinks, ?_⟩
    rintro ⟨i, l, hlead, hbottom⟩
    exact h.branching.root_free i l hlead hbottom

theorem expand_ok (h : RootedAt joins root) {links : List (Option Link)}
    (hlinks : joins.mapM Join.link? = .ok links) :
    ∃ paths, Resolve.expand (links.filterMap id) [root] (Dict.empty.insert root "") = .ok paths := by
  refine Resolve.expand_succeeds ((nodup_bottoms_iff hlinks).2 h.branching.incoming) ?_ ?_ ?_
  · intro l hl
    obtain ⟨i, hlead⟩ := (mem_links_iff hlinks).1 hl
    exact nameable_iff.1 (h.nameable hlead)
  · simp [Dict.contains_insert]
  · intro l hl hbottom
    obtain ⟨i, hlead⟩ := (mem_links_iff hlinks).1 hl
    rw [Dict.contains_insert, Dict.contains_empty, Bool.or_false, beq_iff_eq] at hbottom
    exact absurd hbottom (h.branching.root_free i l hlead)

theorem contains_iff (h : RootedAt joins root) {links : List (Option Link)} {paths : Dict String}
    (hlinks : joins.mapM Join.link? = .ok links)
    (hpaths : Resolve.expand (links.filterMap id) [root] (Dict.empty.insert root "") = .ok paths)
    (name : String) : paths.contains name ↔ name ∈ joins.map Join.name := by
  rw [Resolve.expand_contains_iff hlinks hpaths]
  constructor
  · rintro ⟨walk, hwalk⟩
    cases hwalk with
    | stay => exact h.root_mem
    | step _ hlead => exact (h.ends_mem hlead).2
  · exact fun hname => (h.walk name hname).exists

theorem checked (h : RootedAt joins root) : ∃ links t, Resolve.Checked joins links root t := by
  obtain ⟨tables, htables⟩ : ∃ tables, Resolve.tables .empty joins = .ok tables :=
    Resolve.tables_succeeds h.distinct (by simp)
  obtain ⟨links, hlinks⟩ := h.links_ok
  obtain ⟨paths, hpaths⟩ := h.expand_ok hlinks
  have htable := Resolve.tables_empty_contains_iff htables
  refine ⟨links, ⟨some root, paths, tables⟩, rfl, htables, hlinks, fun name hname => ?_,
    h.roots_eq hlinks, hpaths, Dict.size_eq_of_contains fun name => ?_⟩
  · exact (htable name).2 (h.defined_of_mem hlinks hname)
  · exact (h.contains_iff hlinks hpaths name).trans (htable name).symm

end RootedAt

theorem Tree.resolve_nil : Tree.resolve [] = .ok {} := rfl

theorem Tree.resolve_ok_rootedAt_iff {joins : List Join} {root : String} :
    (∃ t, Tree.resolve joins = .ok t ∧ t.root = some root) ↔ RootedAt joins root := by
  constructor
  · rintro ⟨t, ht, hroot⟩
    have hjoins : joins ≠ [] := by
      rintro rfl
      rw [Tree.resolve_nil] at ht
      cases ht
      cases hroot
    obtain ⟨links, r, hchecked⟩ := (Tree.resolve_eq_ok_iff hjoins).1 ht
    rw [hchecked.root_eq] at hroot
    cases hroot
    exact hchecked.rootedAt
  · intro h
    have hjoins : joins ≠ [] := by
      rintro rfl
      exact List.not_mem_nil h.root_mem
    obtain ⟨links, t, hchecked⟩ := h.checked
    exact ⟨t, (Tree.resolve_eq_ok_iff hjoins).2 ⟨links, root, hchecked⟩, hchecked.root_eq⟩

/-- **Resolution accepts exactly the rooted trees.** Joins are resolved exactly when there are none or
when they form a tree, and the root of the resolution is the root of the tree. -/
theorem Tree.resolve_accepts_rooted_trees (joins : List Join) :
    ((∃ t, Tree.resolve joins = .ok t) ↔ joins = [] ∨ ∃ root, RootedAt joins root) ∧
      ∀ root, (∃ t, Tree.resolve joins = .ok t ∧ t.root = some root) ↔ RootedAt joins root := by
  refine ⟨⟨?_, ?_⟩, fun root => Tree.resolve_ok_rootedAt_iff⟩
  · rintro ⟨t, ht⟩
    by_cases hjoins : joins = []
    · exact .inl hjoins
    · obtain ⟨links, root, hchecked⟩ := (Tree.resolve_eq_ok_iff hjoins).1 ht
      exact .inr ⟨root, hchecked.rootedAt⟩
  · rintro (rfl | ⟨root, h⟩)
    · exact ⟨{}, Tree.resolve_nil⟩
    · obtain ⟨t, ht, -⟩ := Tree.resolve_ok_rootedAt_iff.2 h
      exact ⟨t, ht⟩

end PathQuery
