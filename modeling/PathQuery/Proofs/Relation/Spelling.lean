import Mathlib.Data.List.Induction
import PathQuery.Proofs.Relation.Direction
import PathQuery.Proofs.Relation.Order
import PathQuery.Proofs.Steps
/-!
# Paths spell walks

What a resolved tree says about its joins, in full. The path of an alias holds the names of the relationships
on the only walk from the root to it, and every table is that of the join that defines the alias.

A tree has one edge less than it has aliases. Every alias is defined by one join, and every join that is not
alone leads to one alias, never to the root and never to the same one as another join. So a single join is left
that stands alone, whether it defines the root or not.
-/

namespace PathQuery

open Text (joinWith)

/-- The name of the relationship that a foreign key stands for. -/
inductive NamedAfter : String → String → Prop
  | custom {stem : String} (hstem : stem ≠ "") : NamedAfter (stem ++ "__c") (stem ++ "__r")
  | standard {stem : String} (hstem : stem ≠ "") : NamedAfter (stem ++ "Id") stem

theorem namedAfter_iff {key name : String} : NamedAfter key name ↔ relationshipName key = .ok name := by
  rw [relationshipName_eq_ok_iff]
  constructor
  · intro h
    cases h with
    | custom hstem => exact ⟨_, hstem, .inl ⟨rfl, rfl⟩⟩
    | standard hstem => exact ⟨_, hstem, .inr ⟨rfl, rfl⟩⟩
  · rintro ⟨stem, hstem, ⟨rfl, rfl⟩ | ⟨rfl, rfl⟩⟩
    · exact .custom hstem
    · exact .standard hstem

/-! ### Steps of a path -/

theorem Spells.ne_empty {joins : List Join} {walk : List Nat} {names : List String}
    (h : Spells joins walk names) : ∀ name ∈ names, name ≠ "" := by
  induction h with
  | nil => exact List.forall_mem_nil _
  | cons hname _ ih =>
    obtain ⟨l, -, hname⟩ := hname
    exact List.forall_mem_cons.2 ⟨relationshipName_ne_empty hname, ih⟩

theorem Spells.forall₂_namedAfter {joins : List Join} {walk : List Nat} {names : List String}
    (h : Spells joins walk names) :
    List.Forall₂ (fun i name => ∃ l, LeadsAt joins i l ∧ NamedAfter l.key name) walk names :=
  h.imp fun _ _ ⟨l, hlead, hname⟩ => ⟨l, hlead, namedAfter_iff.2 hname⟩

/-- A path that grows step by step holds the steps with dots between them. -/
theorem Resolve.foldl_extend {names : List String} (h : ∀ name ∈ names, name ≠ "") :
    names.foldl extend "" = joinWith "." names := by
  induction names using List.reverseRecOn with
  | nil => rfl
  | append_singleton names name ih =>
    have hnames : ∀ n ∈ names, n ≠ "" := fun n hn => h n (List.mem_append_left _ hn)
    rw [List.foldl_append, ih hnames]
    exact extend_joinWith hnames name

/-! ### The edges of a tree -/

/-- There are as many links as joins that do not stand alone. -/
theorem length_links {joins : List Join} {links : List (Option Link)}
    (hlinks : joins.mapM Join.link? = .ok links) :
    (links.filterMap id).length = joins.countP fun j => j.parent.isSome := by
  rw [mapM_eq_ok_iff] at hlinks
  induction joins generalizing links with
  | nil =>
    rw [List.map_eq_nil_iff.1 hlinks.symm]
    rfl
  | cons j rest ih =>
    cases links with
    | nil => cases hlinks
    | cons o links =>
      obtain ⟨hj, hrest⟩ := List.cons.inj hlinks
      rw [List.countP_cons, ← ih hrest]
      cases o with
      | none => simp [Join.link?_eq_none_iff.1 hj]
      | some l =>
        obtain ⟨parent, hparent, -⟩ := (Join.link?_eq_some_iff.1 hj).ends
        simp [hparent]

namespace RootedAt

variable {joins : List Join} {root : String}

theorem exists_entering (h : RootedAt joins root) {name : String} (hname : name ∈ joins.map Join.name)
    (hne : name ≠ root) : ∃ i l, LeadsAt joins i l ∧ l.bottom = name := by
  obtain ⟨walk, hwalk⟩ := (h.walk name hname).exists
  cases hwalk with
  | stay => exact absurd rfl hne
  | step _ hlead => exact ⟨_, _, hlead, rfl⟩

/-- The links lead to all aliases but the root, to each of them once. -/
theorem bottoms_perm (h : RootedAt joins root) {links : List (Option Link)}
    (hlinks : joins.mapM Join.link? = .ok links) :
    ((links.filterMap id).map Link.bottom).Perm ((joins.map Join.name).erase root) := by
  rw [List.perm_ext_iff_of_nodup ((nodup_bottoms_iff hlinks).2 h.branching.incoming) (h.distinct.erase root)]
  intro name
  rw [List.mem_map, h.distinct.mem_erase_iff]
  simp only [mem_links_iff hlinks]
  constructor
  · rintro ⟨l, ⟨i, hlead⟩, rfl⟩
    exact ⟨h.branching.root_free i l hlead, (h.ends_mem hlead).2⟩
  · rintro ⟨hne, hname⟩
    obtain ⟨i, l, hlead, hbottom⟩ := h.exists_entering hname hne
    exact ⟨l, ⟨i, hlead⟩, hbottom⟩

theorem exists_alone (h : RootedAt joins root) : ∃ lone, (joins.filter fun j => j.parent.isNone) = [lone] := by
  obtain ⟨links, hlinks⟩ := h.links_ok
  have hedges : joins.countP (fun j => j.parent.isSome) = joins.length - 1 := by
    have hlength := (h.bottoms_perm hlinks).length_eq
    rw [List.length_map, length_links hlinks, List.length_erase_of_mem h.root_mem, List.length_map] at hlength
    exact hlength
  have hpos : 0 < joins.length := by
    obtain ⟨j, hj, -⟩ := List.mem_map.1 h.root_mem
    exact List.length_pos_of_mem hj
  have hsplit := List.length_eq_countP_add_countP (fun j : Join => j.parent.isNone) (l := joins)
  simp only [Bool.not_eq_true, Option.isNone_eq_false_iff, Bool.decide_eq_true] at hsplit
  rw [← List.length_eq_one_iff, ← List.countP_eq_length_filter]
  omega

theorem exists_walk_append_iff (h : RootedAt joins root) {i : Nat} {j : Join} (hi : joins[i]? = some j) :
    (∃ walk name, Walk joins root (walk ++ [i]) name) ↔ j.parent.isSome := by
  constructor
  · rintro ⟨walk, name, hwalk⟩
    generalize hend : walk ++ [i] = positions at hwalk
    cases hwalk with
    | stay => simp at hend
    | step _ hlead =>
      obtain ⟨k, hk, hrefers⟩ := hlead
      rw [← (List.append_singleton_inj.1 hend).2, hi] at hk
      cases hk
      obtain ⟨parent, hparent, -⟩ := hrefers.ends
      exact Option.isSome_of_eq_some hparent
  · intro hparent
    obtain ⟨l, hrefers, -⟩ := h.refers (List.mem_of_getElem? hi) hparent
    have hlead : LeadsAt joins i l := ⟨j, hi, hrefers⟩
    obtain ⟨walk, hwalk⟩ := (h.walk l.top (h.ends_mem hlead).1).exists
    exact ⟨walk, l.bottom, .step hwalk hlead⟩

theorem root_eq_lone_iff {root lone : Join} (h : RootedAt joins root.name) (hroot : root ∈ joins)
    (hlone : (joins.filter fun j => j.parent.isNone) = [lone]) :
    root = lone ↔ ∀ j ∈ joins, j.isReverse = false := by
  have halone : ∀ j, j ∈ joins ∧ j.parent = none ↔ j = lone := by
    intro j
    rw [← List.mem_singleton (b := lone), ← hlone, List.mem_filter, Option.isNone_iff_eq_none]
  obtain ⟨hmem, hparent⟩ := (halone lone).2 rfl
  rw [← h.root_eq_base_iff hmem hparent fun j hj hnone => (halone j).1 ⟨hj, hnone⟩]
  exact ⟨congrArg Join.name, h.join_unique hroot hmem⟩

theorem existsUnique_entering (h : RootedAt joins root) {name : String} (hname : name ∈ joins.map Join.name)
    (hne : name ≠ root) : ∃! i, ∃ l, LeadsAt joins i l ∧ l.bottom = name := by
  obtain ⟨i, l, hlead, hbottom⟩ := h.exists_entering hname hne
  refine ⟨i, ⟨l, hlead, hbottom⟩, ?_⟩
  rintro k ⟨m, hlead', hbottom'⟩
  exact h.branching.incoming k i m l hlead' hlead (hbottom'.trans hbottom.symm)

end RootedAt

/-! ### The tree -/

namespace Tree

variable {joins : List Join} {t : Tree} (h : Tree.resolve joins = .ok t)

include h

theorem names_perm : t.names.Perm (joins.map Join.name) := by
  by_cases hjoins : joins = []
  · subst hjoins
    cases h
    rfl
  · obtain ⟨links, root, hchecked⟩ := (Tree.resolve_eq_ok_iff hjoins).1 h
    have hnodup : t.names.Nodup := t.paths.keys_nodup
    rw [List.perm_ext_iff_of_nodup hnodup hchecked.rootedAt.distinct]
    intro name
    rw [← hchecked.paths_contains_iff]
    exact Dict.mem_keys

theorem path?_spelled {root name : String} (hroot : t.root = some root) (hname : name ∈ joins.map Join.name) :
    ∃ walk steps, Walk joins root walk name ∧ Spells joins walk steps ∧
      t.path? name = some (joinWith "." steps) := by
  obtain ⟨path, hpath⟩ := exists_path? h hname
  obtain ⟨links, other, hchecked⟩ := checked_of_path? h hpath
  obtain rfl : other = root := Option.some.inj (hchecked.root_eq.symm.trans hroot)
  obtain ⟨walk, steps, hwalk, hspells, rfl⟩ := hchecked.path_spelled name path hpath
  exact ⟨walk, steps, hwalk, hspells, hpath.trans (congrArg some (Resolve.foldl_extend hspells.ne_empty))⟩

theorem path?_eq_some_empty_iff {root : Join} (hroot : root ∈ joins) (heq : t.root = some root.name)
    {name : String} : t.path? name = some "" ↔ name = root.name := by
  constructor
  · intro hpath
    exact (Option.some.inj (heq.symm.trans ((path?_eq_empty_iff h hpath).1 rfl))).symm
  · rintro rfl
    obtain ⟨path, hpath⟩ := exists_path? h (List.mem_map_of_mem hroot)
    rw [hpath, (path?_eq_empty_iff h hpath).2 heq]

end Tree

/-- What the tree of some joins says about them. The `root` is the join that defines the root of the tree, and
`lone` is the one that is not joined to any other. -/
structure Tree.Spelled (t : Tree) (joins : List Join) (root lone : Join) : Prop where
  root_mem : root ∈ joins
  root_eq : t.root = some root.name
  names : t.names.Perm (joins.map Join.name)
  table : ∀ name table, t.table? name = some table ↔ ∃ j ∈ joins, j.name = name ∧ j.table = table
  path_empty : ∀ name, t.path? name = some "" ↔ name = root.name
  path : ∀ name ∈ joins.map Join.name, ∃ walk steps,
    (∀ other, Walk joins root.name other name ↔ other = walk) ∧
      List.Forall₂ (fun i step => ∃ l, LeadsAt joins i l ∧ NamedAfter l.key step) walk steps ∧
      t.path? name = some (joinWith "." steps)
  qualified_root : t.qualifiedPath? root.name = some root.table
  qualified : ∀ name path, t.path? name = some path → name ≠ root.name →
    t.qualifiedPath? name = some (root.table ++ "." ++ path)
  lone_eq : (joins.filter fun j => j.parent.isNone) = [lone]
  /-- The joins that walks from the root go along are those that do not stand alone. -/
  edge_iff : ∀ (i : Nat) (j : Join), joins[i]? = some j →
    ((∃ walk name, Walk joins root.name (walk ++ [i]) name) ↔ j.parent.isSome)
  /-- Every alias but the root is entered by one of them. -/
  entered : ∀ name ∈ joins.map Join.name, name ≠ root.name → ∃! i, ∃ l, LeadsAt joins i l ∧ l.bottom = name
  root_eq_lone_iff : root = lone ↔ ∀ j ∈ joins, j.isReverse = false

/-- **Paths spell walks.** A tree that is not empty knows the aliases of its joins with their tables. The path
of an alias names the relationships along the only walk to it, and the joins that such walks go along are all
but one. -/
theorem Tree.resolve_spelled {joins : List Join} {t : Tree} (h : Tree.resolve joins = .ok t)
    (hne : t.isEmpty = false) : ∃ root lone, t.Spelled joins root lone := by
  have hjoins : joins ≠ [] := by
    rintro rfl
    cases h
    cases hne
  obtain ⟨root, hroot, hrootEq, hrootTable, hrooted⟩ := Tree.exists_root h hjoins
  obtain ⟨lone, hlone⟩ := hrooted.exists_alone
  have hempty : ∀ {name}, t.path? name = some "" ↔ name = root.name := path?_eq_some_empty_iff h hroot hrootEq
  exact ⟨root, lone, {
    root_mem := hroot
    root_eq := hrootEq
    names := names_perm h
    table := fun _ _ => table?_eq_some_iff h
    path_empty := fun _ => hempty
    path := by
      intro name hname
      obtain ⟨walk, steps, hwalk, hspells, hpath⟩ := path?_spelled h hrootEq hname
      refine ⟨walk, steps, fun other => ⟨?_, fun heq => heq ▸ hwalk⟩, hspells.forall₂_namedAfter, hpath⟩
      exact fun hother => hother.unique hrooted.branching hwalk
    qualified_root := qualifiedPath?_of_path? (hempty.2 rfl) hrootTable
    qualified := by
      intro name path hpath hname
      have hpathNe : path ≠ "" := fun heq => hname (hempty.1 (heq ▸ hpath))
      rw [qualifiedPath?_of_path? hpath hrootTable, qualify, if_neg hpathNe]
    lone_eq := hlone
    edge_iff := fun _ _ => hrooted.exists_walk_append_iff
    entered := fun _ => hrooted.existsUnique_entering
    root_eq_lone_iff := hrooted.root_eq_lone_iff hroot hlone }⟩

/-- The account stands alone, and the root is the case. -/
theorem casesFromAccount_spelled :
    ∃ t root lone, Tree.resolve casesFromAccount = .ok t ∧ t.isEmpty = false ∧
      t.Spelled casesFromAccount root lone ∧ root.name = "K" ∧ lone.name = "A" := by
  obtain ⟨t, ht, hknown⟩ := exists_eq_ok_of_map (r := Tree.resolve casesFromAccount)
    (f := fun t => (t.root, t.isEmpty)) (b := (some "K", false)) (by decide +kernel)
  obtain ⟨root, lone, hspelled⟩ := Tree.resolve_spelled ht (congrArg Prod.snd hknown)
  refine ⟨t, root, lone, ht, congrArg Prod.snd hknown, hspelled, ?_, ?_⟩
  · exact Option.some.inj (hspelled.root_eq.symm.trans (congrArg Prod.fst hknown))
  · obtain ⟨rfl⟩ : [lone] = [Join.base "Account" "A"] := hspelled.lone_eq.symm.trans rfl
    rfl

end PathQuery
