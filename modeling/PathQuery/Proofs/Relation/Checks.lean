import PathQuery.Proofs.Relation.Expansion
import PathQuery.Proofs.Relation.Walk
/-!
# The checks on the way to a tree

`Tree.resolve` makes its checks one after the other, each on what the last one has left. Here they are
collected into one proposition, `Resolve.Checked`, which holds of the result exactly when there is one.
The lists of aliases that are compared on the way are read as statements about where joins lead.
-/

namespace PathQuery

namespace Resolve

/-! ### Tables -/

theorem tables_cons {known all : Dict String} {j : Join} {rest : List Join} :
    tables known (j :: rest) = .ok all ↔
      known.contains j.name = false ∧ tables (known.insert j.name j.table) rest = .ok all := by
  rw [tables]
  cases known.contains j.name <;> simp

theorem tables_ok {known all : Dict String} {joins : List Join} (h : tables known joins = .ok all) :
    (joins.map Join.name).Nodup ∧ (∀ name ∈ joins.map Join.name, known.contains name = false) ∧
      ∀ name, all.contains name ↔ name ∈ joins.map Join.name ∨ known.contains name := by
  induction joins generalizing known with
  | nil =>
    cases h
    simp
  | cons j rest ih =>
    obtain ⟨hnew, hrest⟩ := tables_cons.1 h
    obtain ⟨hnodup, hfresh, hall⟩ := ih hrest
    simp only [Dict.contains_insert, Bool.or_eq_false_iff, beq_eq_false_iff_ne] at hfresh
    rw [List.map_cons]
    refine ⟨List.nodup_cons.2 ⟨fun hmem => (hfresh _ hmem).1 rfl, hnodup⟩, ?_, ?_⟩
    · intro name hname
      rcases List.mem_cons.1 hname with rfl | hname
      · exact hnew
      · exact (hfresh name hname).2
    · intro name
      rw [hall, Dict.contains_insert, Bool.or_eq_true, beq_iff_eq, List.mem_cons, or_left_comm,
        or_assoc]

theorem tables_empty_contains_iff {joins : List Join} {all : Dict String} (h : tables .empty joins = .ok all)
    (name : String) : all.contains name ↔ name ∈ joins.map Join.name := by
  rw [(tables_ok h).2.2, Dict.contains_empty]
  simp only [Bool.false_eq_true, or_false]

theorem tables_succeeds {known : Dict String} {joins : List Join}
    (hnodup : (joins.map Join.name).Nodup)
    (hfresh : ∀ name ∈ joins.map Join.name, known.contains name = false) :
    ∃ all, tables known joins = .ok all := by
  induction joins generalizing known with
  | nil => exact ⟨known, rfl⟩
  | cons j rest ih =>
    rw [List.map_cons, List.nodup_cons] at hnodup
    rw [List.map_cons] at hfresh
    have hrest : ∀ name ∈ rest.map Join.name,
        (known.insert j.name j.table).contains name = false := by
      intro name hname
      rw [Dict.contains_insert, hfresh name (List.mem_cons_of_mem _ hname), Bool.or_false,
        beq_eq_false_iff_ne]
      rintro rfl
      exact hnodup.1 hname
    obtain ⟨all, hall⟩ := ih hnodup.2 hrest
    exact ⟨all, tables_cons.2 ⟨hfresh _ List.mem_cons_self, hall⟩⟩

/-! ### Ends of links -/

section Ends

variable {joins : List Join} {links : List (Option Link)}

theorem mem_bottoms (hlinks : joins.mapM Join.link? = .ok links) {name : String} :
    name ∈ bottoms links ↔ ∃ i l, LeadsAt joins i l ∧ l.bottom = name := by
  rw [bottoms, mem_distinctNames, List.mem_map]
  simp only [mem_links_iff hlinks]
  constructor
  · rintro ⟨l, ⟨i, hlead⟩, hbottom⟩
    exact ⟨i, l, hlead, hbottom⟩
  · rintro ⟨i, l, hlead, hbottom⟩
    exact ⟨l, ⟨i, hlead⟩, hbottom⟩

theorem mem_tops (hlinks : joins.mapM Join.link? = .ok links) {name : String} :
    name ∈ tops joins links ↔
      (∃ i l, LeadsAt joins i l ∧ l.top = name) ∨ ∃ j ∈ joins, j.parent = none ∧ j.name = name := by
  rw [tops, mem_distinctNames, List.mem_map]
  constructor
  · rintro ⟨⟨j, o⟩, hmem, hname⟩
    obtain ⟨i, hi⟩ := List.mem_iff_getElem?.1 hmem
    obtain ⟨hj, ho⟩ := List.getElem?_zip_eq_some.1 hi
    cases o with
    | some l => exact .inl ⟨i, l, (leadsAt_iff hlinks).2 ho, hname⟩
    | none =>
      obtain ⟨k, hk, hnone⟩ := (getElem?_links hlinks).1 ho
      rw [hj] at hk
      cases hk
      exact .inr ⟨j, List.mem_of_getElem? hj, Join.link?_eq_none_iff.1 hnone, hname⟩
  · rintro (⟨i, l, hlead, hname⟩ | ⟨j, hj, hparent, hname⟩)
    · have ho := (leadsAt_iff hlinks).1 hlead
      obtain ⟨j, hj, -⟩ := hlead
      exact ⟨(j, some l), List.mem_of_getElem? (List.getElem?_zip_eq_some.2 ⟨hj, ho⟩), hname⟩
    · obtain ⟨i, hi⟩ := List.mem_iff_getElem?.1 hj
      have ho := (getElem?_links hlinks).2 ⟨j, hi, Join.link?_eq_none_iff.2 hparent⟩
      exact ⟨(j, none), List.mem_of_getElem? (List.getElem?_zip_eq_some.2 ⟨hi, ho⟩), hname⟩

/-- The ends of links are the aliases that are defined and those that are joined to. -/
theorem mem_ends_iff (hlinks : joins.mapM Join.link? = .ok links) {name : String} :
    name ∈ tops joins links ∨ name ∈ bottoms links ↔
      name ∈ joins.map Join.name ∨ ∃ j ∈ joins, j.parent = some name := by
  rw [mem_tops hlinks, mem_bottoms hlinks]
  constructor
  · have hnamed : ∀ i l, LeadsAt joins i l → l.top = name ∨ l.bottom = name →
        name ∈ joins.map Join.name ∨ ∃ j ∈ joins, j.parent = some name := by
      rintro i l ⟨j, hi, hrefers⟩ hend
      have hj := List.mem_of_getElem? hi
      rcases hrefers.ends_iff.1 hend with hname | hparent
      · exact .inl (List.mem_map.2 ⟨j, hj, hname⟩)
      · exact .inr ⟨j, hj, hparent⟩
    rintro ((⟨i, l, hlead, htop⟩ | ⟨j, hj, -, hname⟩) | ⟨i, l, hlead, hbottom⟩)
    · exact hnamed i l hlead (.inl htop)
    · exact .inl (List.mem_map.2 ⟨j, hj, hname⟩)
    · exact hnamed i l hlead (.inr hbottom)
  · have hend : ∀ j ∈ joins, j.parent.isSome → j.name = name ∨ j.parent = some name →
        ((∃ i l, LeadsAt joins i l ∧ l.top = name) ∨ ∃ j ∈ joins, j.parent = none ∧ j.name = name) ∨
          ∃ i l, LeadsAt joins i l ∧ l.bottom = name := by
      intro j hj hparent hnamed
      obtain ⟨i, l, hlead, hrefers⟩ := exists_leadsAt hlinks hj hparent
      rcases hrefers.ends_iff.2 hnamed with htop | hbottom
      · exact .inl (.inl ⟨i, l, hlead, htop⟩)
      · exact .inr ⟨i, l, hlead, hbottom⟩
    rintro (hname | ⟨j, hj, hparent⟩)
    · obtain ⟨j, hj, hname⟩ := List.mem_map.1 hname
      cases hparent : j.parent with
      | none => exact .inl (.inr ⟨j, hj, hparent, hname⟩)
      | some parent => exact hend j hj (hparent ▸ rfl) (.inl hname)
    · exact hend j hj (hparent ▸ rfl) (.inr hparent)

end Ends

theorem find?_unknown_eq_none {tables : Dict String} {above below : List String} :
    ((distinctNames (above ++ below)).find? fun name => !tables.contains name) = none ↔
      ∀ name, name ∈ above ∨ name ∈ below → tables.contains name := by
  simp only [List.find?_eq_none, mem_distinctNames, List.mem_append, Bool.not_eq_true,
    Bool.not_eq_false']

/-! ### All checks -/

/-- Everything that is checked on the way to a tree. -/
structure Checked (joins : List Join) (links : List (Option Link)) (root : String) (t : Tree) : Prop where
  root_eq : t.root = some root
  tables_ok : tables .empty joins = .ok t.tables
  links_ok : joins.mapM Join.link? = .ok links
  known : ∀ name, name ∈ tops joins links ∨ name ∈ bottoms links → t.tables.contains name
  roots : ((tops joins links).filter fun name => !(bottoms links).contains name) = [root]
  paths_ok : expand (links.filterMap id) [root] (Dict.empty.insert root "") = .ok t.paths
  size_eq : t.paths.size = t.tables.size

end Resolve

theorem Tree.resolve_eq_ok_iff {joins : List Join} (hjoins : joins ≠ []) {t : Tree} :
    Tree.resolve joins = .ok t ↔ ∃ links root, Resolve.Checked joins links root t := by
  have hempty : joins.isEmpty = false := by simpa using hjoins
  simp only [Tree.resolve, hempty, Bool.false_eq_true, if_false, bind, Except.bind, pure, Except.pure,
    throw, throwThe, MonadExceptOf.throw]
  constructor
  · intro h
    split at h
    · cases h
    rename_i tables htables
    split at h
    · cases h
    rename_i links hlinks
    split at h
    · cases h
    rename_i hknown
    have hknown := Resolve.find?_unknown_eq_none.1 (Option.eq_none_iff_forall_ne_some.2 hknown)
    split at h
    · rename_i root hroots
      split at h
      · cases h
      rename_i paths hexpand
      split at h
      · cases h
      rename_i hsize
      cases h
      exact ⟨links, root, rfl, htables, hlinks, hknown, hroots, hexpand, not_not.1 hsize⟩
    · cases h
  · rintro ⟨links, root, hroot, htables, hlinks, hknown, hroots, hexpand, hsize⟩
    have hknown := Resolve.find?_unknown_eq_none.2 hknown
    simp only [htables, hlinks, hknown, hroots, hexpand, hsize, ne_eq, not_true_eq_false, if_false,
      ← hroot]

end PathQuery
