import PathQuery.Proofs.Substitution
/-!
# Paths as lists of words

Where tables and the columns of joins are words, every path is a list of words joined by dots, and so is what
an alias stands for. It has the steps of the alias's path, behind the root's table unless that is left out. A
field behind its qualifier is then a longer list of the same kind, which is how it is read again.
-/

namespace PathQuery

open Text (IsWord joinWith)

namespace Text

theorem joinWith_append (separator : String) {parts rest : List String} (hparts : parts ≠ [])
    (hrest : rest ≠ []) :
    joinWith separator (parts ++ rest) = joinWith separator parts ++ separator ++ joinWith separator rest := by
  induction parts with
  | nil => exact absurd rfl hparts
  | cons part parts ih =>
    cases parts with
    | nil => exact joinWith_cons separator part hrest
    | cons next parts =>
      have hne : next :: parts ≠ [] := List.cons_ne_nil _ _
      rw [List.cons_append, joinWith_cons separator part (List.append_ne_nil_of_left_ne_nil hne rest),
        ih hne, joinWith_cons separator part hne]
      simp only [String.append_assoc]

theorem joinWith_eq_empty_iff (separator : String) {words : List String} (hwords : ∀ w ∈ words, IsWord w) :
    joinWith separator words = "" ↔ words = [] := by
  constructor
  · intro hempty
    by_contra hne
    exact joinWith_ne_empty separator hne (fun w hw => (hwords w hw).1) hempty
  · rintro rfl
    rfl

theorem joinWith_append_parts {parts rest : List String} (hparts : ∀ part ∈ parts, part ≠ "") (hrest : rest ≠ []) :
    (if joinWith "." parts = "" then joinWith "." rest else joinWith "." parts ++ "." ++ joinWith "." rest) =
      joinWith "." (parts ++ rest) := by
  by_cases hempty : parts = []
  · subst hempty
    rfl
  · rw [if_neg (joinWith_ne_empty "." hempty hparts), joinWith_append "." hempty hrest]

end Text

/-- The table and the columns are words. -/
structure Join.Worded (j : Join) : Prop where
  table : IsWord j.table
  columns : ∀ pair ∈ j.columns, IsWord pair.1 ∧ IsWord pair.2

instance (j : Join) : Decidable j.Worded :=
  decidable_of_iff (IsWord j.table ∧ ∀ pair ∈ j.columns, IsWord pair.1 ∧ IsWord pair.2)
    ⟨fun ⟨htable, hcolumns⟩ => ⟨htable, hcolumns⟩, fun h => ⟨h.table, h.columns⟩⟩

/-- The table is a word, and so is the foreign key of a join that has one. -/
structure Join.Keyed (j : Join) : Prop where
  table : IsWord j.table
  key : ∀ link, j.Refers link → IsWord link.key

theorem Join.Worded.keyed {j : Join} (h : j.Worded) : j.Keyed := by
  refine ⟨h.table, fun link hlink => ?_⟩
  obtain ⟨pair, hpair, hkey⟩ := hlink.key_mem
  rcases hkey with hkey | hkey
  · exact hkey ▸ (h.columns pair hpair).1
  · exact hkey ▸ (h.columns pair hpair).2

theorem relationshipName_isWord {key name : String} (hkey : IsWord key)
    (h : relationshipName key = .ok name) : IsWord name := by
  refine ⟨relationshipName_ne_empty h, fun c hc => ?_⟩
  rcases mem_relationshipName h hc with hc | hc
  · exact hkey.2 c hc
  · exact List.all_eq_true.1 (by decide : "__r".toList.all Text.isWordChar) c hc

theorem Resolve.extend_joinWith {steps : List String} (hsteps : ∀ step ∈ steps, step ≠ "") (name : String) :
    extend (joinWith "." steps) name = joinWith "." (steps ++ [name]) :=
  Text.joinWith_append_parts hsteps (List.cons_ne_nil name [])

namespace Tree

variable {joins : List Join} {t : Tree} (h : Tree.resolve joins = .ok t) (hkeyed : ∀ j ∈ joins, j.Keyed)

include h

theorem path?_isSome_iff {name : String} : (t.path? name).isSome ↔ name ∈ joins.map Join.name := by
  constructor
  · intro hsome
    obtain ⟨path, hpath⟩ := Option.isSome_iff_exists.1 hsome
    obtain ⟨links, root, hchecked⟩ := checked_of_path? h hpath
    exact (hchecked.paths_contains_iff name).1 hsome
  · intro hname
    obtain ⟨path, hpath⟩ := exists_path? h hname
    rw [hpath]
    rfl

include hkeyed

theorem exists_steps {name path : String} (hpath : t.path? name = some path) :
    ∃ steps, (∀ step ∈ steps, IsWord step) ∧ path = joinWith "." steps := by
  obtain ⟨links, root, hchecked⟩ := checked_of_path? h hpath
  have hkey : ∀ link ∈ links.filterMap id, IsWord link.key := by
    intro link hlink
    obtain ⟨i, j, hj, hrefers⟩ := (mem_links_iff hchecked.links_ok).1 hlink
    exact (hkeyed j (List.mem_of_getElem? hj)).key link hrefers
  have hpaths : ∀ name path, t.path? name = some path →
      ∃ steps, (∀ step ∈ steps, IsWord step) ∧ path = joinWith "." steps := by
    refine hchecked.path_induction ⟨[], List.forall_mem_nil _, rfl⟩ ?_
    rintro link hlink _ step ⟨steps, hsteps, rfl⟩ hstep
    refine ⟨steps ++ [step], ?_, Resolve.extend_joinWith (fun s hs => (hsteps s hs).1) step⟩
    intro s hs
    rcases List.mem_append.1 hs with hs | hs
    · exact hsteps s hs
    · rw [List.mem_singleton.1 hs]
      exact relationshipName_isWord (hkey link hlink) hstep
  exact hpaths name path hpath

theorem rootTable_isWord {table : String} (htable : t.rootTable? = some table) : IsWord table := by
  obtain ⟨root, -, hroot⟩ := Option.bind_eq_some_iff.1 htable
  obtain ⟨j, hj, -, rfl⟩ := exists_join_of_table? h hroot
  exact (hkeyed j hj).table

end Tree

/-- What an alias stands for, as a list of words. -/
theorem Naming.exists_steps {n : Naming} {joins : List Join} (hresolve : Tree.resolve joins = .ok n.tree)
    (hkeyed : ∀ j ∈ joins, j.Keyed) {name : String} (hname : name ∈ joins.map Join.name) :
    ∃ table steps, n.tree.rootTable? = some table ∧ IsWord table ∧ (∀ step ∈ steps, IsWord step) ∧
      n.tree.path? name = some (joinWith "." steps) ∧
      n.standsFor name = joinWith "." (if n.isMinimal name then steps else table :: steps) := by
  obtain ⟨path, hpath⟩ := Tree.exists_path? hresolve hname
  obtain ⟨table, htable⟩ := Tree.exists_rootTable? hresolve hpath
  obtain ⟨steps, hsteps, rfl⟩ := Tree.exists_steps hresolve hkeyed hpath
  refine ⟨table, steps, htable, Tree.rootTable_isWord hresolve hkeyed htable, hsteps, hpath, ?_⟩
  have hfull : n.tree.qualifiedPath? name = some (joinWith "." (table :: steps)) := by
    rw [Tree.qualifiedPath?_of_path? hpath htable]
    by_cases hempty : steps = []
    · rw [hempty]
      rfl
    · rw [Tree.qualify, if_neg (mt (Text.joinWith_eq_empty_iff "." hsteps).1 hempty),
        Text.joinWith_cons "." table hempty]
  rw [standsFor, hpath, hfull]
  split <;> rfl

theorem Naming.qualified_joinWith {steps rest : List String} (hsteps : ∀ step ∈ steps, IsWord step)
    (hrest : rest ≠ []) :
    qualified (joinWith "." steps) (joinWith "." rest) = joinWith "." (steps ++ rest) :=
  Text.joinWith_append_parts (fun step hstep => (hsteps step hstep).1) hrest

end PathQuery
