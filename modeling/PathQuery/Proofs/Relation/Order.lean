import PathQuery.Proofs.Relation.Paths
import PathQuery.Proofs.Report
/-!
# The order of joins

The tree of some joins does not depend on the order in which they are listed, though the rounds go through
them in that order. Being a rooted tree is a matter of where joins lead, and a walk keeps its end and the
names along it when the joins are put in another order; only the positions it goes through change. A tree
knows nothing but the table of each alias, which its join gives, and the path, which is spelled by the only
walk from the root.
-/

namespace PathQuery

/-- The relationship names of the joins at the positions of a walk. -/
def Spells (joins : List Join) (walk : List Nat) (names : List String) : Prop :=
  List.Forall₂ (fun i name => ∃ l, LeadsAt joins i l ∧ relationshipName l.key = .ok name) walk names

theorem Spells.unique {joins : List Join} {walk : List Nat} {names others : List String}
    (hnames : Spells joins walk names) (hothers : Spells joins walk others) : names = others := by
  refine Relator.RightUnique.forall₂ ?_ hnames hothers
  rintro i name other ⟨l, hlead, hname⟩ ⟨m, hlead', hother⟩
  rw [← hlead.unique hlead', hname] at hother
  exact Except.ok.inj hother

/-- The path of an alias is spelled by a walk from the root. -/
theorem Resolve.Checked.path_spelled {joins : List Join} {links : List (Option Link)} {root : String}
    {t : Tree} (h : Checked joins links root t) :
    ∀ name path, t.path? name = some path →
      ∃ walk names, Walk joins root walk name ∧ Spells joins walk names ∧ path = names.foldl extend "" := by
  refine h.path_induction ⟨[], [], .stay, .nil, rfl⟩ ?_
  rintro link hlink path step ⟨walk, names, hwalk, hspells, rfl⟩ hstep
  obtain ⟨i, hlead⟩ := (mem_links_iff h.links_ok).1 hlink
  refine ⟨walk ++ [i], names ++ [step], .step hwalk hlead, ?_, ?_⟩
  · exact List.rel_append hspells (.cons ⟨link, hlead, hstep⟩ .nil)
  · rw [List.foldl_append]
    rfl

theorem Tree.table?_eq_some_iff {joins : List Join} {t : Tree} (h : Tree.resolve joins = .ok t)
    {name table : String} : t.table? name = some table ↔ ∃ j ∈ joins, j.name = name ∧ j.table = table := by
  refine ⟨exists_join_of_table? h, ?_⟩
  rintro ⟨j, hj, rfl, rfl⟩
  obtain ⟨links, root, hchecked⟩ := (Tree.resolve_eq_ok_iff (List.ne_nil_of_mem hj)).1 h
  obtain ⟨table, htable⟩ := Dict.contains_iff_exists.1
    ((hchecked.tables_contains_iff j.name).2 (List.mem_map_of_mem hj))
  obtain ⟨k, hk, hname, rfl⟩ := exists_join_of_table? h htable
  have hsame : k = j := List.inj_on_of_nodup_map hchecked.rootedAt.distinct hk hj hname
  subst hsame
  exact htable

/-! ### The same joins at other positions -/

section Positions

variable {joins others : List Join} {position : Nat → Nat} {root : String}

theorem exists_position (hsub : joins ⊆ others) :
    ∃ position : Nat → Nat, ∀ i l, LeadsAt joins i l → LeadsAt others (position i) l := by
  have hat : ∀ i, ∃ k, ∀ l, LeadsAt joins i l → LeadsAt others k l := by
    intro i
    cases hi : joins[i]? with
    | none =>
      refine ⟨0, fun l hlead => ?_⟩
      obtain ⟨j, hj, -⟩ := hlead
      rw [hi] at hj
      cases hj
    | some j =>
      obtain ⟨k, hk⟩ := List.mem_iff_getElem?.1 (hsub (List.mem_of_getElem? hi))
      refine ⟨k, fun l hlead => ?_⟩
      obtain ⟨j', hj', hrefers⟩ := hlead
      rw [hi] at hj'
      exact ⟨j', hk.trans hj', hrefers⟩
  choose position hposition using hat
  exact ⟨position, hposition⟩

variable (hposition : ∀ i l, LeadsAt joins i l → LeadsAt others (position i) l)

include hposition

theorem Walk.reposition {walk : List Nat} {name : String} (h : Walk joins root walk name) :
    Walk others root (walk.map position) name := by
  induction h with
  | stay => exact .stay
  | step _ hlead ih =>
    rw [List.map_append]
    exact .step ih (hposition _ _ hlead)

theorem Spells.reposition {walk : List Nat} {names : List String} (h : Spells joins walk names) :
    Spells others (walk.map position) names := by
  rw [Spells, List.forall₂_map_left_iff]
  exact h.imp fun i name ⟨l, hlead, hname⟩ => ⟨l, hposition i l hlead, hname⟩

end Positions

/-! ### The same joins in another order -/

section Permuted

variable {joins others : List Join} {root : String} (hperm : joins.Perm others)

include hperm

theorem Branching.perm (hdistinct : (joins.map Join.name).Nodup) (h : Branching joins root) :
    Branching others root := by
  have hmem : ∀ {i l}, LeadsAt others i l → ∃ k, LeadsAt joins k l := by
    intro i l hlead
    obtain ⟨position, hposition⟩ := exists_position hperm.symm.subset
    exact ⟨position i, hposition i l hlead⟩
  refine ⟨fun i l hlead => ?_, fun i k l m hl hm hbottom => ?_⟩
  · obtain ⟨a, hlead⟩ := hmem hlead
    exact h.root_free a l hlead
  · -- Joins that lead to one alias are one join, and it is listed once.
    obtain ⟨j, hj, hl⟩ := hl
    obtain ⟨j', hj', hm⟩ := hm
    obtain ⟨a, ha⟩ := List.mem_iff_getElem?.1 (hperm.mem_iff.2 (List.mem_of_getElem? hj))
    obtain ⟨b, hb⟩ := List.mem_iff_getElem?.1 (hperm.mem_iff.2 (List.mem_of_getElem? hj'))
    have hab : a = b := h.incoming a b l m ⟨j, ha, hl⟩ ⟨j', hb, hm⟩ hbottom
    have hnodup : others.Nodup := hperm.nodup_iff.1 (List.Nodup.of_map _ hdistinct)
    rw [hab, hb] at ha
    rw [Option.some.inj ha] at hj'
    exact (List.getElem?_inj (List.getElem?_eq_some_iff.1 hj).1 hnodup).1 (hj.trans hj'.symm)

theorem RootedAt.perm (h : RootedAt joins root) : RootedAt others root := by
  have hnames : (joins.map Join.name).Perm (others.map Join.name) := hperm.map _
  have hbranch := h.branching.perm hperm h.distinct
  obtain ⟨position, hposition⟩ := exists_position hperm.subset
  refine ⟨hnames.nodup_iff.1 h.distinct, ?_, ?_, hnames.mem_iff.1 h.root_mem, ?_⟩
  · exact fun j hj => h.single j (hperm.mem_iff.2 hj)
  · exact fun j hj parent hparent => hnames.mem_iff.1 (h.defined j (hperm.mem_iff.2 hj) parent hparent)
  · intro name hname
    obtain ⟨walk, hwalk, -⟩ := h.walk name (hnames.mem_iff.2 hname)
    exact ⟨_, hwalk.reposition hposition, fun other hother => hother.unique hbranch (hwalk.reposition hposition)⟩

theorem Tree.path?_of_perm {s t : Tree} (hs : Tree.resolve joins = .ok s) (ht : Tree.resolve others = .ok t)
    (hroot : s.root = t.root) {name path : String} (hpath : s.path? name = some path) :
    t.path? name = some path := by
  obtain ⟨links, root, hchecked⟩ := checked_of_path? hs hpath
  obtain ⟨walk, names, hwalk, hspells, rfl⟩ := hchecked.path_spelled name path hpath
  have hname : name ∈ others.map Join.name :=
    (hperm.map _).mem_iff.1 ((hchecked.paths_contains_iff name).1 (Option.isSome_of_eq_some hpath))
  obtain ⟨other, hother⟩ := exists_path? ht hname
  obtain ⟨links', root', hchecked'⟩ := checked_of_path? ht hother
  obtain ⟨walk', names', hwalk', hspells', rfl⟩ := hchecked'.path_spelled name other hother
  rw [hchecked.root_eq, hchecked'.root_eq] at hroot
  cases hroot
  -- Both walks lead from the root to the alias, so they are one walk and spell one path.
  obtain ⟨position, hposition⟩ := exists_position hperm.subset
  have hsame : walk.map position = walk' := (hwalk.reposition hposition).unique hchecked'.branching hwalk'
  have hnames : names = names' := (hsame ▸ hspells.reposition hposition).unique hspells'
  rw [hother, hnames]

theorem Tree.eq_of_perm {s t : Tree} (hs : Tree.resolve joins = .ok s) (ht : Tree.resolve others = .ok t)
    (hroot : s.root = t.root) : s = t := by
  have htables : s.tables = t.tables := by
    apply Dict.eq_of_get?
    intro name
    apply Option.ext
    intro table
    show s.table? name = some table ↔ t.table? name = some table
    rw [table?_eq_some_iff hs, table?_eq_some_iff ht]
    simp only [hperm.mem_iff]
  have hpaths : s.paths = t.paths := by
    apply Dict.eq_of_get?
    intro name
    apply Option.ext
    intro path
    exact ⟨path?_of_perm hperm hs ht hroot, path?_of_perm hperm.symm ht hs hroot.symm⟩
  cases s
  cases t
  cases hroot
  cases htables
  cases hpaths
  rfl

/-- A resolution of joins is one of the same joins in another order. -/
theorem Tree.resolve_of_perm {t : Tree} (h : Tree.resolve joins = .ok t) : Tree.resolve others = .ok t := by
  by_cases hjoins : joins = []
  · subst hjoins
    rw [hperm.nil_eq.symm]
    exact h
  · obtain ⟨links, root, hchecked⟩ := (Tree.resolve_eq_ok_iff hjoins).1 h
    obtain ⟨other, hother, hroot⟩ := Tree.resolve_ok_rootedAt_iff.2 (hchecked.rootedAt.perm hperm)
    have hsame : t = other := eq_of_perm hperm h hother (hchecked.root_eq.trans hroot.symm)
    rw [hother, hsame]

end Permuted

/-- **The order of joins does not matter.** Joins are resolved exactly when they are in any other order, and
to the same tree. -/
theorem Tree.resolve_perm_iff {joins others : List Join} (hperm : joins.Perm others) (t : Tree) :
    Tree.resolve joins = .ok t ↔ Tree.resolve others = .ok t :=
  ⟨Tree.resolve_of_perm hperm, Tree.resolve_of_perm hperm.symm⟩

/-- Cases of contacts of accounts, listed from the account on. The case holds the foreign key of the contact,
and the contact that of the account. -/
def casesFromAccount : List Join :=
  [.base "Account" "A", .single "A" "Contact" "Id" "AccountId" "C", .single "C" "Case" "Id" "ContactId" "K",
    .single "A" "User" "OwnerId" "Id" "U"]

theorem casesFromAccount_reversed :
    ∃ t, Tree.resolve casesFromAccount = .ok t ∧ Tree.resolve casesFromAccount.reverse = .ok t ∧
      t.root = some "K" ∧ t.path? "U" = some "Contact.Account.Owner" := by
  obtain ⟨t, ht, hknown⟩ := exists_eq_ok_of_map (r := Tree.resolve casesFromAccount)
    (f := fun t => (t.root, t.path? "U")) (b := (some "K", some "Contact.Account.Owner")) (by decide +kernel)
  have hreversed := (Tree.resolve_perm_iff (List.reverse_perm casesFromAccount).symm t).1 ht
  exact ⟨t, ht, hreversed, congrArg Prod.fst hknown, congrArg Prod.snd hknown⟩

end PathQuery
