import PathQuery.Relation.Link
import PathQuery.Relation.Tree
/-!
# Resolving joins

Finding the relationship tree of a list of joins. The links are followed from the root in rounds: the
first round reaches the rows that the root refers to, the next one the rows that those refer to, and so
on. An alias that is reached twice and an alias that is never reached both show that there is no tree.

Every round but the last reaches an alias for the first time, which bounds the number of rounds.
-/

namespace PathQuery

namespace Resolve

/-- The tables by alias. An alias may be defined once only. -/
def tables (known : Dict String) : List Join → Except RelationError (Dict String)
  | [] => .ok known
  | j :: rest =>
    if known.contains j.name then .error (.duplicateName j.name)
    else tables (known.insert j.name j.table) rest

/-- The path one step further down. -/
def extend (path name : String) : String :=
  if path = "" then name else path ++ "." ++ name

/-- One round: follows the links whose top is in `frontier`, in order. Gives all paths found so far and
the aliases that are new. -/
def scan (frontier : List String) :
    List Link → Dict String → Except RelationError (Dict String × List String)
  | [], paths => .ok (paths, [])
  | link :: rest, paths =>
    if link.top ∉ frontier then scan frontier rest paths
    else if paths.contains link.bottom then .error (.notATree link.bottom)
    else
      match relationshipName link.key with
      | .error e => .error e
      | .ok name =>
        let path := extend ((paths.get? link.top).getD "") name
        match scan frontier rest (paths.insert link.bottom path) with
        | .error e => .error e
        | .ok (found, next) => .ok (found, link.bottom :: next)

/-- The links that lead to an alias not yet reached. -/
def unreached (links : List Link) (paths : Dict String) : List Link :=
  links.filter fun link => !paths.contains link.bottom

theorem scan_contains {frontier : List String} {links : List Link} {paths found : Dict String}
    {next : List String} (h : scan frontier links paths = .ok (found, next)) {name : String}
    (hname : paths.contains name) : found.contains name := by
  induction links generalizing paths next with
  | nil => cases h; exact hname
  | cons link rest ih =>
    simp only [scan] at h
    split at h
    · exact ih h hname
    · split at h
      · cases h
      · split at h
        · cases h
        · split at h
          · cases h
          · rename_i hscan
            cases h
            exact ih hscan (by simp [Dict.contains_insert, hname])

theorem scan_next {frontier : List String} {links : List Link} {paths found : Dict String}
    {next : List String} (h : scan frontier links paths = .ok (found, next)) {name : String}
    (hname : name ∈ next) :
    (∃ link ∈ links, link.bottom = name) ∧ paths.contains name = false ∧ found.contains name := by
  induction links generalizing paths next with
  | nil => cases h; cases hname
  | cons link rest ih =>
    simp only [scan] at h
    split at h
    · obtain ⟨⟨l, hl, hb⟩, hrest⟩ := ih h hname
      exact ⟨⟨l, List.mem_cons_of_mem _ hl, hb⟩, hrest⟩
    · split at h
      · cases h
      · rename_i hnew
        split at h
        · cases h
        · split at h
          · cases h
          · rename_i hscan
            cases h
            rcases List.mem_cons.1 hname with rfl | hname
            · exact ⟨⟨link, List.mem_cons_self, rfl⟩, by simpa using hnew,
                scan_contains hscan (by simp [Dict.contains_insert])⟩
            · obtain ⟨⟨l, hl, hb⟩, hold, hfound⟩ := ih hscan hname
              simp only [Dict.contains_insert, Bool.or_eq_false_iff] at hold
              exact ⟨⟨l, List.mem_cons_of_mem _ hl, hb⟩, hold.2, hfound⟩

/-- A round that reaches something new leaves fewer links to follow. -/
theorem unreached_lt {frontier : List String} {links : List Link} {paths found : Dict String}
    {next : List String} (h : scan frontier links paths = .ok (found, next)) (hnext : next ≠ []) :
    (unreached links found).length < (unreached links paths).length := by
  obtain ⟨name, hname⟩ := List.exists_mem_of_ne_nil next hnext
  obtain ⟨⟨link, hlink, hbottom⟩, hold, hfound⟩ := scan_next h hname
  have hsub : unreached links found =
      (unreached links paths).filter fun link => !found.contains link.bottom := by
    rw [unreached, unreached, List.filter_filter]
    refine List.filter_congr fun l _ => ?_
    cases hp : paths.contains l.bottom
    · simp
    · simp [scan_contains h hp]
  rw [hsub]
  refine List.length_filter_lt_length_iff_exists.2 ⟨link, ?_, ?_⟩
  · simp [unreached, hlink, hbottom, hold]
  · simp [hbottom, hfound]

/-- Follows the links round after round until a round reaches nothing new. -/
def expand (links : List Link) (frontier : List String) (paths : Dict String) :
    Except RelationError (Dict String) :=
  match _ : scan frontier links paths with
  | .error e => .error e
  | .ok (found, next) =>
    if _ : next = [] then .ok found else expand links next found
termination_by (unreached links paths).length
decreasing_by exact unreached_lt ‹_› ‹_›

/-- The aliases that stand above another one or alone. -/
def tops (joins : List Join) (links : List (Option Link)) : List String :=
  distinctNames ((joins.zip links).map fun (j, link) => link.elim j.name Link.top)

/-- The aliases that stand below another one. -/
def bottoms (links : List (Option Link)) : List String :=
  distinctNames ((links.filterMap id).map Link.bottom)

end Resolve

/-- The relationship tree of a list of joins. Without joins it is empty. -/
def Tree.resolve (joins : List Join) : Except RelationError Tree := do
  if joins.isEmpty then return {}
  let tables ← Resolve.tables Dict.empty joins
  let links ← joins.mapM Join.link?
  let above := Resolve.tops joins links
  let below := Resolve.bottoms links
  if let some unknown := (distinctNames (above ++ below)).find? fun name => !tables.contains name then
    throw (.unknownName unknown)
  match above.filter fun name => !below.contains name with
  | [root] =>
    let paths ← Resolve.expand (links.filterMap id) [root] (Dict.empty.insert root "")
    if paths.size ≠ tables.size then
      throw (.disconnected (tables.keys.filter fun name => !paths.contains name))
    return { root := some root, paths, tables }
  | roots => throw (.rootCount roots)

end PathQuery
