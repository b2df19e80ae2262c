import PathQuery.Proofs.Relation.Name
import PathQuery.Proofs.Relation.RootedTree
/-!
# What a resolved tree knows

The aliases of a tree are those of its joins. The root is the one with the empty path, and it has a
table whenever there is an alias at all. Everything in a path but the dots and the endings of
relationship names comes from a foreign key.
-/

namespace PathQuery

theorem Resolve.extend_ne_empty (path : String) {name : String} (hname : name ≠ "") :
    extend path name ≠ "" := by
  rw [extend]
  split
  · exact hname
  · intro hempty
    exact hname (String.append_eq_empty_iff.1 hempty).2

theorem Resolve.mem_extend {path name : String} {c : Char} (h : c ∈ (extend path name).toList) :
    c ∈ path.toList ∨ c = '.' ∨ c ∈ name.toList := by
  rw [extend] at h
  split at h
  · exact .inr (.inr h)
  · have hdot : ".".toList = ['.'] := by decide
    rw [String.toList_append, String.toList_append, hdot, List.append_assoc, List.mem_append,
      List.singleton_append, List.mem_cons] at h
    exact h

/-- The tables come from the joins. -/
theorem Resolve.tables_get? {known all : Dict String} {joins : List Join} (h : tables known joins = .ok all)
    {name table : String} (hget : all.get? name = some table) :
    (∃ j ∈ joins, j.name = name ∧ j.table = table) ∨ known.get? name = some table := by
  induction joins generalizing known with
  | nil =>
    cases h
    exact .inr hget
  | cons j rest ih =>
    rcases ih (tables_cons.1 h).2 with ⟨k, hk, hkeys⟩ | hknown
    · exact .inl ⟨k, List.mem_cons_of_mem _ hk, hkeys⟩
    · rw [Dict.get?_insert] at hknown
      split at hknown
      · rename_i hname
        cases hknown
        exact .inl ⟨j, List.mem_cons_self, hname.symm, rfl⟩
      · exact .inr hknown

/-- What holds of the root and is kept by a step along a link holds of all paths. -/
theorem Resolve.Checked.path_induction {joins : List Join} {links : List (Option Link)} {root : String}
    {t : Tree} (h : Checked joins links root t) {holds : String → String → Prop} (hroot : holds root "")
    (hstep : ∀ link ∈ links.filterMap id, ∀ path name, holds link.top path →
      relationshipName link.key = .ok name → holds link.bottom (extend path name)) :
    ∀ name path, t.path? name = some path → holds name path := by
  refine expand_paths h.paths_ok hstep ?_ ?_
  · intro name hname
    rw [List.mem_singleton.1 hname, Dict.contains_insert, beq_self_eq_true, Bool.true_or]
  · intro name path hget
    rw [Dict.get?_insert, Dict.get?_empty] at hget
    split at hget
    · rename_i hname
      cases hget
      exact hname ▸ hroot
    · cases hget

/-- The foreign key of a link is one of the join's columns. -/
theorem Join.Refers.key_mem {j : Join} {l : Link} (h : j.Refers l) :
    ∃ pair ∈ j.columns, l.key = pair.1 ∨ l.key = pair.2 := by
  cases h with
  | forward => exact ⟨_, List.mem_cons_self, .inl rfl⟩
  | reverse => exact ⟨_, List.mem_cons_self, .inr rfl⟩

namespace Tree

variable {joins : List Join} {t : Tree}

/-- A tree that knows some alias comes from joins that pass all checks. -/
theorem checked_of_path? (h : Tree.resolve joins = .ok t) {name path : String}
    (hpath : t.path? name = some path) : ∃ links root, Resolve.Checked joins links root t := by
  by_cases hjoins : joins = []
  · subst hjoins
    cases h
    cases hpath
  · exact (Tree.resolve_eq_ok_iff hjoins).1 h

theorem exists_path? (h : Tree.resolve joins = .ok t) {name : String}
    (hname : name ∈ joins.map Join.name) : ∃ path, t.path? name = some path := by
  have hjoins : joins ≠ [] := by
    rintro rfl
    cases hname
  obtain ⟨links, root, hchecked⟩ := (Tree.resolve_eq_ok_iff hjoins).1 h
  exact Dict.contains_iff_exists.1 ((hchecked.paths_contains_iff name).2 hname)

theorem exists_rootTable? (h : Tree.resolve joins = .ok t) {name path : String}
    (hpath : t.path? name = some path) : ∃ table, t.rootTable? = some table := by
  obtain ⟨links, root, hchecked⟩ := checked_of_path? h hpath
  rw [rootTable?, hchecked.root_eq]
  exact Dict.contains_iff_exists.1 ((hchecked.tables_contains_iff root).2 hchecked.root_mem)

theorem path?_eq_empty_iff (h : Tree.resolve joins = .ok t) {name path : String}
    (hpath : t.path? name = some path) : path = "" ↔ t.root = some name := by
  obtain ⟨links, root, hchecked⟩ := checked_of_path? h hpath
  -- The root is never the lower end of a link, so its path is not extended.
  have hbottom : ∀ link ∈ links.filterMap id, link.bottom ≠ root := by
    intro link hlink hroot
    obtain ⟨i, hlead⟩ := (mem_links_iff hchecked.links_ok).1 hlink
    exact hchecked.branching.root_free i link hlead hroot
  have hpaths : ∀ name path, t.path? name = some path → (path = "" ↔ name = root) := by
    refine hchecked.path_induction (iff_of_true rfl rfl) ?_
    intro link hlink path name hholds hname
    exact iff_of_false (Resolve.extend_ne_empty path (relationshipName_ne_empty hname)) (hbottom link hlink)
  rw [hpaths name path hpath, hchecked.root_eq, Option.some_inj, eq_comm]

theorem qualifiedPath?_of_path? {name path table : String} (hpath : t.path? name = some path)
    (htable : t.rootTable? = some table) : t.qualifiedPath? name = some (qualify table path) := by
  rw [qualifiedPath?, hpath, htable]
  rfl

theorem root_qualifiedPath? (h : Tree.resolve joins = .ok t) {name path table : String}
    (hpath : t.path? name = some path) (htable : t.rootTable? = some table) :
    t.root.bind t.qualifiedPath? = some table := by
  obtain ⟨links, root, hchecked⟩ := checked_of_path? h hpath
  obtain ⟨rootPath, hroot⟩ := exists_path? h hchecked.root_mem
  have hempty : rootPath = "" := (path?_eq_empty_iff h hroot).2 hchecked.root_eq
  rw [hchecked.root_eq, Option.bind_some, qualifiedPath?_of_path? hroot htable, hempty]
  rfl

theorem exists_join_of_table? (h : Tree.resolve joins = .ok t) {name table : String}
    (htable : t.table? name = some table) : ∃ j ∈ joins, j.name = name ∧ j.table = table := by
  by_cases hjoins : joins = []
  · subst hjoins
    cases h
    cases htable
  · obtain ⟨links, root, hchecked⟩ := (Tree.resolve_eq_ok_iff hjoins).1 h
    rcases Resolve.tables_get? hchecked.tables_ok htable with hjoin | hnone
    · exact hjoin
    · cases hnone

/-- Whatever holds of the dot, of the endings of relationship names and of the characters of foreign keys
holds of the characters of paths. -/
theorem path_chars {ok : Char → Prop} (h : Tree.resolve joins = .ok t) (hdot : ok '.')
    (hending : ∀ c ∈ "__r".toList, ok c)
    (hkeys : ∀ j ∈ joins, ∀ link, j.Refers link → ∀ c ∈ link.key.toList, ok c)
    {name path : String} (hpath : t.path? name = some path) : ∀ c ∈ path.toList, ok c := by
  obtain ⟨links, root, hchecked⟩ := checked_of_path? h hpath
  have hlink : ∀ link ∈ links.filterMap id, ∀ c ∈ link.key.toList, ok c := by
    intro link hlink
    obtain ⟨i, j, hj, hrefers⟩ := (mem_links_iff hchecked.links_ok).1 hlink
    exact hkeys j (List.mem_of_getElem? hj) link hrefers
  have hpaths : ∀ name path, t.path? name = some path → ∀ c ∈ path.toList, ok c := by
    refine hchecked.path_induction (List.forall_mem_nil ok) ?_
    intro link hmem path name hholds hname c hc
    rcases Resolve.mem_extend hc with hc | hc | hc
    · exact hholds c hc
    · exact hc ▸ hdot
    · exact (mem_relationshipName hname hc).elim (hlink link hmem c) (hending c)
  exact hpaths name path hpath

end Tree

end PathQuery
