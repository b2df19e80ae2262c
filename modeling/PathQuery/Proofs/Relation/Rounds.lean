import Mathlib.Algebra.BigOperators.Group.List.Basic
import Mathlib.Data.List.Chain
import PathQuery.Proofs.Relation.Refusal
/-!
# The rounds come to an end

Joins may lead in circles, back to where they start, or side by side to one alias. The rounds end all the same.
`Rounds` tells of them as of a loop that nobody has promised to end: it goes on as long as there is a frontier.

An alias is in a frontier only if it had no path before the round that put it there, and it has one ever after. So no
alias is in two frontiers, and everything else follows: a link is followed when its top is in the frontier, and there
are no more rounds than aliases to fill the frontiers with.
-/

namespace PathQuery

namespace Resolve

/-- Where the rounds stand: the aliases whose links are to be followed, and the paths found so far. -/
structure Search where
  frontier : List String
  paths : Dict String

/-- The rounds that are made as long as there is a frontier, each by what it starts with, and what they come to. -/
inductive Rounds (links : List Link) : Search → List Search → Except RelationError (Dict String) → Prop
  | ended (paths : Dict String) : Rounds links ⟨[], paths⟩ [] (.ok paths)
  | failed {s : Search} {e : RelationError} (hs : s.frontier ≠ []) (hscan : scan s.frontier links s.paths = .error e) :
    Rounds links s [s] (.error e)
  | round {s : Search} {found : Dict String} {next : List String} {rounds : List Search}
      {result : Except RelationError (Dict String)} (hs : s.frontier ≠ [])
      (hscan : scan s.frontier links s.paths = .ok (found, next)) (hrest : Rounds links ⟨next, found⟩ rounds result) :
    Rounds links s (s :: rounds) result

namespace Search

/-- A round follows the link at a place: it gets there, and the link's top is in the frontier. -/
def Expands (links : List Link) (s : Search) (i : Nat) : Prop :=
  (∃ link, links[i]? = some link ∧ link.top ∈ s.frontier) ∧
    ∃ reached, scan s.frontier (links.take i) s.paths = .ok reached

/-- Between two searches an alias has got its first path, and none has lost its path. -/
def Grows (s t : Search) : Prop :=
  (∀ name, s.paths.contains name → t.paths.contains name) ∧
    ∃ name, s.paths.contains name = false ∧ t.paths.contains name

/-- The frontier is a list of different aliases that have paths. -/
structure Sound (s : Search) : Prop where
  nodup : s.frontier.Nodup
  reached : ∀ name ∈ s.frontier, s.paths.contains name

end Search

/-! ### One round -/

section Round

variable {links : List Link} {s : Search} {found : Dict String} {next : List String}

theorem sound_of_scan (hscan : scan s.frontier links s.paths = .ok (found, next)) : Search.Sound ⟨next, found⟩ :=
  ⟨(scan_ok hscan).nodup, fun name hname => ((scan_ok hscan).found_iff name).2 (.inr hname)⟩

/-- What has no path after a round, or is in its next frontier, had none before it. -/
theorem unreached_before (hscan : scan s.frontier links s.paths = .ok (found, next)) {name : String}
    (hname : name ∈ next ∨ found.contains name = false) : s.paths.contains name = false := by
  rcases hname with hnext | hfound
  · exact (scan_ok hscan).fresh name hnext
  · by_contra hold
    rw [Bool.not_eq_false] at hold
    rw [((scan_ok hscan).found_iff name).2 (.inl hold)] at hfound
    cases hfound

theorem grows_of_scan (hscan : scan s.frontier links s.paths = .ok (found, next)) (hnext : next ≠ []) :
    s.Grows ⟨next, found⟩ := by
  have hscanned := scan_ok hscan
  obtain ⟨name, hname⟩ := List.exists_mem_of_ne_nil next hnext
  refine ⟨fun other hother => (hscanned.found_iff other).2 (.inl hother), name, hscanned.fresh name hname, ?_⟩
  exact (hscanned.found_iff name).2 (.inr hname)

end Round

/-! ### All rounds -/

section All

variable {links : List Link} {s : Search} {rounds : List Search} {result : Except RelationError (Dict String)}

/-- There is one way to make the rounds. -/
theorem Rounds.unique {others : List Search} {other : Except RelationError (Dict String)}
    (h : Rounds links s rounds result) (h' : Rounds links s others other) : others = rounds ∧ other = result := by
  induction h generalizing others other with
  | ended paths =>
    cases h' with
    | ended => exact ⟨rfl, rfl⟩
    | failed hs => exact absurd rfl hs
    | round hs => exact absurd rfl hs
  | failed hs hscan =>
    cases h' with
    | ended => exact absurd rfl hs
    | failed _ hscan' =>
      rw [hscan] at hscan'
      cases hscan'
      exact ⟨rfl, rfl⟩
    | round _ hscan' =>
      rw [hscan] at hscan'
      cases hscan'
  | round hs hscan _ ih =>
    cases h' with
    | ended => exact absurd rfl hs
    | failed _ hscan' =>
      rw [hscan] at hscan'
      cases hscan'
    | round _ hscan' hrest' =>
      rw [hscan] at hscan'
      cases hscan'
      obtain ⟨rfl, rfl⟩ := ih hrest'
      exact ⟨rfl, rfl⟩

/-- The rounds from a frontier are those that are counted on to end. -/
theorem exists_rounds (links : List Link) {frontier : List String} (hfrontier : frontier ≠ []) (paths : Dict String) :
    ∃ rounds, Rounds links ⟨frontier, paths⟩ rounds (expand links frontier paths) := by
  fun_induction expand links frontier paths with
  | case1 frontier paths e hscan => exact ⟨_, .failed hfrontier hscan⟩
  | case2 frontier paths found hscan => exact ⟨_, .round hfrontier hscan (.ended found)⟩
  | case3 frontier paths found next hscan hnext ih =>
    obtain ⟨rounds, hrounds⟩ := ih hnext
    exact ⟨_, .round hfrontier hscan hrounds⟩

theorem Rounds.head_eq (h : Rounds links s rounds result) {t : Search} (ht : t ∈ rounds.head?) : t = s := by
  cases h with
  | ended => cases ht
  | failed => exact (Option.mem_some_iff.1 ht).symm
  | round => exact (Option.mem_some_iff.1 ht).symm

theorem Rounds.frontier_ne_nil (h : Rounds links s rounds result) : ∀ t ∈ rounds, t.frontier ≠ [] := by
  induction h with
  | ended => simp
  | failed hs => simpa using hs
  | round hs _ _ ih => exact List.forall_mem_cons.2 ⟨hs, ih⟩

/-- What holds of the first frontier and of the bottoms of all links holds of every frontier. -/
theorem Rounds.frontier_holds {holds : String → Prop} (h : Rounds links s rounds result)
    (hs : ∀ name ∈ s.frontier, holds name) (hlinks : ∀ link ∈ links, holds link.bottom) :
    ∀ t ∈ rounds, ∀ name ∈ t.frontier, holds name := by
  induction h with
  | ended => simp
  | failed => simpa using hs
  | round _ hscan _ ih =>
    refine List.forall_mem_cons.2 ⟨hs, ih fun name hname => ?_⟩
    obtain ⟨link, hlink, -, rfl⟩ := ((scan_ok hscan).mem_next name).1 hname
    exact hlinks link hlink

/-- A frontier holds aliases of the first one and aliases that had no path at the start. -/
theorem Rounds.frontier_fresh (h : Rounds links s rounds result) :
    ∀ t ∈ rounds, ∀ name ∈ t.frontier, name ∈ s.frontier ∨ s.paths.contains name = false := by
  induction h with
  | ended => simp
  | failed =>
    rw [List.forall_mem_singleton]
    exact fun name => .inl
  | round _ hscan _ ih =>
    refine List.forall_mem_cons.2 ⟨fun name => .inl, fun t ht name hname => .inr ?_⟩
    exact unreached_before hscan (ih t ht name hname)

/-- No alias is in two frontiers, or twice in one. -/
theorem Rounds.frontiers_nodup (h : Rounds links s rounds result) (hs : s.Sound) :
    (rounds.flatMap Search.frontier).Nodup := by
  induction h with
  | ended => simp
  | failed => simpa using hs.nodup
  | round _ hscan hrest ih =>
    rw [List.flatMap_cons, List.nodup_append]
    refine ⟨hs.nodup, ih (sound_of_scan hscan), fun name hname other hother heq => ?_⟩
    obtain ⟨t, ht, hother⟩ := List.mem_flatMap.1 hother
    have hnew := unreached_before hscan (hrest.frontier_fresh t ht other hother)
    rw [← heq, hs.reached name hname] at hnew
    cases hnew

/-- No link is followed in two rounds. -/
theorem Rounds.expands_once (h : Rounds links s rounds result) (hs : s.Sound) :
    rounds.Pairwise fun t u => ∀ i, ¬ (t.Expands links i ∧ u.Expands links i) := by
  refine (List.nodup_flatMap.1 (h.frontiers_nodup hs)).2.imp ?_
  rintro t u hdisjoint i ⟨⟨⟨link, hlink, htop⟩, -⟩, ⟨other, hother, htop'⟩, -⟩
  rw [hlink] at hother
  cases hother
  exact hdisjoint htop htop'

/-- A round that is not the last gives an alias its first path. -/
theorem Rounds.grows (h : Rounds links s rounds result) : rounds.IsChain Search.Grows := by
  induction h with
  | ended => exact .nil
  | failed => exact .singleton _
  | @round s found next rounds result _ hscan hrest ih =>
    refine List.isChain_cons.2 ⟨fun t ht => ?_, ih⟩
    rw [hrest.head_eq ht]
    apply grows_of_scan hscan
    rintro rfl
    cases hrest with
    | ended => cases ht
    | failed hs => exact hs rfl
    | round hs => exact hs rfl

/-- There are no more rounds than aliases, since each has one of its own. -/
theorem Rounds.length_le (h : Rounds links s rounds result) (hs : s.Sound) {names : List String}
    (hnames : ∀ name ∈ s.frontier, name ∈ names) (hlinks : ∀ link ∈ links, link.bottom ∈ names) :
    rounds.length ≤ names.length := by
  have hsubset : rounds.flatMap Search.frontier ⊆ names := by
    intro name hname
    obtain ⟨t, ht, hname⟩ := List.mem_flatMap.1 hname
    exact h.frontier_holds hnames hlinks t ht name hname
  have hpositive : ∀ n ∈ rounds.map fun t => t.frontier.length, 1 ≤ n := by
    intro n hn
    obtain ⟨t, ht, rfl⟩ := List.mem_map.1 hn
    exact List.length_pos_iff.2 (h.frontier_ne_nil t ht)
  calc
    rounds.length = (rounds.map fun t => t.frontier.length).length := (List.length_map _).symm
    _ ≤ (rounds.map fun t => t.frontier.length).sum := List.length_le_sum_of_one_le _ hpositive
    _ = (rounds.flatMap Search.frontier).length := List.length_flatMap.symm
    _ ≤ names.length := ((h.frontiers_nodup hs).subperm hsubset).length_le

end All

/-! ### Joins that have passed the checks -/

/-- The joins have passed all checks that come before the rounds. -/
structure Cleared (joins : List Join) (tables : Dict String) (links : List (Option Link)) (root : String) : Prop
    extends Surveyed joins tables links where
  known : Known joins tables links
  roots_eq : roots joins links = [root]

/-- The check that is left once the rounds have given their paths: every alias has one. -/
def settle (tables : Dict String) (root : String) (paths : Dict String) : Except RelationError Tree :=
  if paths.size ≠ tables.size then .error (.disconnected (tables.keys.filter fun name => !paths.contains name))
  else .ok { root := some root, paths, tables }

section Checks

variable {joins : List Join} {tables : Dict String} {links : List (Option Link)} {root : String}

theorem Cleared.resolve_eq (h : Cleared joins tables links root) :
    Tree.resolve joins =
      (expand (links.filterMap id) [root] (Dict.empty.insert root "")).bind (settle tables root) := by
  have hempty : joins.isEmpty = false := by
    rw [List.isEmpty_eq_false_iff]
    rintro rfl
    have hroots := h.roots_eq
    cases hroots
  have hfind := find?_unknown_eq_none.2 h.known
  have hroots : ((tops joins links).filter fun name => !(bottoms links).contains name) = [root] := h.roots_eq
  simp only [Tree.resolve, hempty, Bool.false_eq_true, if_false, bind, pure, throw, throwThe, MonadExceptOf.throw,
    h.tables_ok, h.links_ok, hfind, hroots, Except.bind]
  rfl

theorem Cleared.bottom_mem (h : Cleared joins tables links root) :
    ∀ link ∈ links.filterMap id, link.bottom ∈ tables.keys := by
  intro link hlink
  refine Dict.mem_keys.2 (h.known link.bottom (.inr ?_))
  rw [bottoms, mem_distinctNames]
  exact List.mem_map_of_mem hlink

theorem Cleared.root_mem (h : Cleared joins tables links root) : root ∈ tables.keys := by
  have hroot : root ∈ roots joins links := by simp [h.roots_eq]
  exact Dict.mem_keys.2 (h.known root (.inl (List.mem_filter.1 hroot).1))

/-- **The rounds come to an end**, whatever the joins are that have passed the checks. There is one way to make
them, and resolving the joins is making them. No alias is in a frontier twice, no link is followed twice, every round
but the last gives an alias its first path, and there are no more rounds than aliases. -/
theorem rounds_end (h : Cleared joins tables links root) :
    let start : Search := ⟨[root], Dict.empty.insert root ""⟩
    let result := expand (links.filterMap id) start.frontier start.paths
    Tree.resolve joins = result.bind (settle tables root) ∧
      ∃ rounds,
        (∀ others other, Rounds (links.filterMap id) start others other ↔ others = rounds ∧ other = result) ∧
        (rounds.flatMap Search.frontier).Nodup ∧
        (rounds.Pairwise fun s t =>
          ∀ i, ¬ (s.Expands (links.filterMap id) i ∧ t.Expands (links.filterMap id) i)) ∧
        rounds.IsChain Search.Grows ∧
        rounds.length ≤ tables.size := by
  intro start result
  have hstart : start.Sound := by
    refine ⟨List.nodup_singleton root, fun name hname => ?_⟩
    rw [List.mem_singleton.1 hname]
    simp [start, Dict.contains_insert]
  have hroot : ∀ name ∈ start.frontier, name ∈ tables.keys := by
    intro name hname
    rw [List.mem_singleton.1 hname]
    exact h.root_mem
  obtain ⟨rounds, hrounds⟩ : ∃ rounds, Rounds (links.filterMap id) start rounds result :=
    exists_rounds _ (List.cons_ne_nil root []) _
  refine ⟨h.resolve_eq, rounds, fun others other => ?_, hrounds.frontiers_nodup hstart,
    hrounds.expands_once hstart, hrounds.grows, ?_⟩
  · constructor
    · exact hrounds.unique
    · rintro ⟨rfl, rfl⟩
      exact hrounds
  · rw [Dict.size_eq_length_keys]
    exact hrounds.length_le hstart hroot h.bottom_mem

end Checks

/-- A contact that refers to an account, and two accounts that refer to each other. -/
def accountsInRing : List Join :=
  [.single "A" "Contact" "Id" "AccountId" "C", .single "B" "Account" "ParentId" "Id" "A",
    .single "A" "Account" "ParentId" "Id" "B"]

theorem accountsInRing_cleared :
    Cleared accountsInRing (((Dict.empty.insert "C" "Contact").insert "A" "Account").insert "B" "Account")
      [some ⟨"C", "AccountId", "A"⟩, some ⟨"B", "ParentId", "A"⟩, some ⟨"A", "ParentId", "B"⟩] "C" where
  tables_ok := by simp [accountsInRing, Join.single, Resolve.tables, Dict.contains_insert]
  links_ok := rfl
  known := find?_unknown_eq_none.1 (by decide +kernel)
  roots_eq := by decide +kernel

/-- The ring is met in the third round, and there is no fourth. -/
theorem accountsInRing_end :
    ∃ tables links, Cleared accountsInRing tables links "C" ∧
      Tree.resolve accountsInRing = .error (.notATree "A") ∧
      ∃ rounds, Rounds (links.filterMap id) ⟨["C"], Dict.empty.insert "C" ""⟩ rounds (.error (.notATree "A")) ∧
        rounds.length ≤ 3 := by
  obtain ⟨hresolve, rounds, hunique, -, -, -, hlength⟩ := rounds_end accountsInRing_cleared
  have hmet : expand [⟨"C", "AccountId", "A"⟩, ⟨"B", "ParentId", "A"⟩, ⟨"A", "ParentId", "B"⟩] ["C"]
      (Dict.empty.insert "C" "") = .error (.notATree "A") :=
    eq_error_of_map (f := fun _ => ()) (by decide +kernel)
  refine ⟨_, _, accountsInRing_cleared, ?_, rounds, (hunique rounds _).2 ⟨rfl, hmet.symm⟩, hlength⟩
  rw [hresolve]
  exact congrArg (Except.bind · _) hmet

end Resolve

end PathQuery
