import PathQuery.Proofs.Relation.Spelling
/-!
# When paths are distinct

Two aliases of a tree can have the same path, since different foreign keys may give one name to their
relationships: `X__c` and `X__rId` both do. Where no foreign key holds a dot, a path can be cut into the names
that it is made of, so aliases with one path stand equally deep, behind walks with the same names. Going back
along two such walks, the first time that they come from one alias they have left it along two joins whose
relationships have one name. So all paths are distinct exactly when no alias has two such joins.
-/

namespace PathQuery

open Text (joinWith)

/-- No two joins lead out of one alias along relationships of the same name. -/
def NamedApart (joins : List Join) : Prop :=
  ∀ i k l m name, LeadsAt joins i l → LeadsAt joins k m → l.top = m.top →
    NamedAfter l.key name → NamedAfter m.key name → i = k

/-! ### Names along walks -/

theorem spells_concat_iff {joins : List Join} {walk : List Nat} {i : Nat} {names : List String} :
    Spells joins (walk ++ [i]) names ↔ ∃ steps name, names = steps ++ [name] ∧ Spells joins walk steps ∧
      ∃ l, LeadsAt joins i l ∧ relationshipName l.key = .ok name := by
  constructor
  · intro h
    cases names using List.reverseRecOn with
    | nil => simp [Spells] at h
    | append_singleton steps name =>
      have hlength : walk.length = steps.length := by simpa using h.length_eq
      have hwalk := List.forall₂_take_append _ steps [name] h
      have hlast := List.forall₂_drop_append _ steps [name] h
      rw [← hlength, List.take_left] at hwalk
      rw [← hlength, List.drop_left, List.forall₂_cons] at hlast
      exact ⟨steps, name, rfl, hwalk, hlast.1⟩
  · rintro ⟨steps, name, rfl, hsteps, hname⟩
    exact List.rel_append hsteps (.cons hname .nil)

/-- Walks that spell the same and end apart have parted along two joins with one name. -/
theorem Walk.not_namedApart {joins : List Join} {root a b : String} {v w : List Nat} {names : List String}
    (hv : Walk joins root v a) (hw : Walk joins root w b) (hab : a ≠ b) (hnames : Spells joins v names)
    (hothers : Spells joins w names) : ¬ NamedApart joins := by
  induction hv generalizing w b names with
  | stay =>
    cases hnames
    cases hothers
    generalize hend : [] = w at hw
    cases hw with
    | stay => exact absurd rfl hab
    | step => simp at hend
  | @step v i l hv hi ih =>
    obtain ⟨steps, name, rfl, hsteps, l', hi', hname⟩ := spells_concat_iff.1 hnames
    obtain rfl := hi.unique hi'
    cases hw with
    | stay => exact absurd hothers.length_eq (by simp)
    | @step w k m hw hk =>
      obtain ⟨steps', name', heq, hsteps', m', hk', hname'⟩ := spells_concat_iff.1 hothers
      obtain rfl := hk.unique hk'
      obtain ⟨rfl, rfl⟩ := List.append_singleton_inj.1 heq
      by_cases htop : l.top = m.top
      · intro happart
        have hik := happart i k l m name hi hk htop (namedAfter_iff.2 hname) (namedAfter_iff.2 hname')
        subst hik
        exact hab (congrArg Link.bottom (hi.unique hk))
      · exact ih hw htop hsteps hsteps'

theorem Spells.parts {joins : List Join} (hdotless : ∀ j ∈ joins, ∀ l, j.Refers l → '.' ∉ l.key.toList)
    {walk : List Nat} {names : List String} (h : Spells joins walk names) :
    ∀ name ∈ names, name ≠ "" ∧ '.' ∉ name.toList := by
  induction h with
  | nil => exact List.forall_mem_nil _
  | cons hname _ ih =>
    obtain ⟨l, ⟨j, hj, hrefers⟩, hname⟩ := hname
    refine List.forall_mem_cons.2 ⟨⟨relationshipName_ne_empty hname, fun hdot => ?_⟩, ih⟩
    rcases mem_relationshipName hname hdot with hkey | hending
    · exact hdotless j (List.mem_of_getElem? hj) l hrefers hkey
    · exact absurd hending (by decide)

/-! ### Paths of a tree -/

namespace Tree

theorem qualify_injective (table : String) : Function.Injective (qualify table) := by
  intro path other h
  have hlonger : ∀ rest, table ++ "." ++ rest ≠ table := by
    intro rest heq
    rw [String.append_assoc, String.append_eq_left_iff, String.append_eq_empty_iff] at heq
    exact absurd heq.1 (by decide)
  rw [qualify, qualify] at h
  split at h <;> rename_i hpath <;> split at h <;> rename_i hother
  · rw [hpath, hother]
  · exact absurd h.symm (hlonger other)
  · exact absurd h (hlonger path)
  · exact (String.append_right_inj _).1 h

variable {joins : List Join} {t : Tree} (h : Tree.resolve joins = .ok t)

include h

theorem exists_rootedAt {name : String} (hname : name ∈ joins.map Join.name) :
    ∃ root, t.root = some root ∧ RootedAt joins root := by
  have hjoins : joins ≠ [] := by
    rintro rfl
    cases hname
  obtain ⟨root, -, hroot, -, hrooted⟩ := exists_root h hjoins
  exact ⟨root.name, hroot, hrooted⟩

theorem path?_of_walk {root name : String} (hroot : t.root = some root) (hrooted : RootedAt joins root)
    {walk : List Nat} {steps : List String} (hwalk : Walk joins root walk name)
    (hsteps : Spells joins walk steps) : t.path? name = some (joinWith "." steps) := by
  have hname : name ∈ joins.map Join.name := by
    cases hwalk with
    | stay => exact hrooted.root_mem
    | step _ hlead => exact (hrooted.ends_mem hlead).2
  obtain ⟨other, names, hother, hnames, hpath⟩ := path?_spelled h hroot hname
  obtain rfl := hwalk.unique hrooted.branching hother
  rw [hpath, hsteps.unique hnames]

theorem qualifiedPath?_eq_iff {a b : String} (ha : a ∈ joins.map Join.name) (hb : b ∈ joins.map Join.name) :
    t.qualifiedPath? a = t.qualifiedPath? b ↔ t.path? a = t.path? b := by
  obtain ⟨path, hpath⟩ := exists_path? h ha
  obtain ⟨other, hother⟩ := exists_path? h hb
  obtain ⟨table, htable⟩ := exists_rootTable? h hpath
  rw [qualifiedPath?_of_path? hpath htable, qualifiedPath?_of_path? hother htable, hpath, hother,
    Option.some_inj, Option.some_inj]
  exact (qualify_injective table).eq_iff

variable (hdotless : ∀ j ∈ joins, ∀ l, j.Refers l → '.' ∉ l.key.toList)

include hdotless

/-- Aliases with one path stand behind walks with the same names. -/
theorem exists_walks_of_path?_eq {root : String} (hroot : t.root = some root) {a b : String}
    (ha : a ∈ joins.map Join.name) (hb : b ∈ joins.map Join.name)
    (hpath : t.path? a = t.path? b) :
    ∃ v w steps, Walk joins root v a ∧ Walk joins root w b ∧ Spells joins v steps ∧ Spells joins w steps := by
  obtain ⟨v, names, hv, hnames, hpathA⟩ := path?_spelled h hroot ha
  obtain ⟨w, others, hw, hothers, hpathB⟩ := path?_spelled h hroot hb
  have hjoined : joinWith "." names = joinWith "." others :=
    Option.some.inj (hpathA.symm.trans (hpath.trans hpathB))
  obtain rfl := Text.joinWith_dot_inj (hnames.parts hdotless) (hothers.parts hdotless) hjoined
  exact ⟨v, w, names, hv, hw, hnames, hothers⟩

theorem path?_inj_iff :
    (∀ a ∈ joins.map Join.name, ∀ b ∈ joins.map Join.name, t.path? a = t.path? b → a = b) ↔
      NamedApart joins := by
  constructor
  · intro hdistinct i k l m name hi hk htop hname hname'
    obtain ⟨j, hj, hrefers⟩ := hi
    obtain ⟨root, hroot, hrooted⟩ := exists_rootedAt h (List.mem_map_of_mem (List.mem_of_getElem? hj))
    have hi : LeadsAt joins i l := ⟨j, hj, hrefers⟩
    -- Both joins prolong the walk to the alias that they leave, and by the same name.
    obtain ⟨walk, steps, hwalk, hsteps, -⟩ := path?_spelled h hroot (hrooted.ends_mem hi).1
    have hpath : ∀ {k m}, LeadsAt joins k m → m.top = l.top → NamedAfter m.key name →
        t.path? m.bottom = some (joinWith "." (steps ++ [name])) := by
      intro k m hk htop hname
      refine path?_of_walk h hroot hrooted (.step (htop ▸ hwalk) hk) ?_
      exact spells_concat_iff.2 ⟨steps, name, rfl, hsteps, m, hk, namedAfter_iff.1 hname⟩
    have hbottom : l.bottom = m.bottom := by
      refine hdistinct _ (hrooted.ends_mem hi).2 _ (hrooted.ends_mem hk).2 ?_
      rw [hpath hi rfl hname, hpath hk htop.symm hname']
    exact hrooted.branching.incoming i k l m hi hk hbottom
  · intro happart a ha b hb hpath
    obtain ⟨root, hroot, -⟩ := exists_rootedAt h ha
    obtain ⟨v, w, steps, hv, hw, hsteps, hothers⟩ := exists_walks_of_path?_eq h hdotless hroot ha hb hpath
    by_contra hab
    exact hv.not_namedApart hw hab hsteps hothers happart

end Tree

/-- **When paths are distinct**: exactly if no alias has two joins with one relationship name, whether paths are
taken with the root's table or without. Aliases that share a path stand equally deep in any case, and the names
along the walks to them are the same. -/
theorem Tree.paths_distinct_iff {joins : List Join} {t : Tree} (h : Tree.resolve joins = .ok t)
    (hdotless : ∀ j ∈ joins, ∀ l, j.Refers l → '.' ∉ l.key.toList) :
    ((∀ a ∈ joins.map Join.name, ∀ b ∈ joins.map Join.name, t.path? a = t.path? b → a = b) ↔
      NamedApart joins) ∧
    ((∀ a ∈ joins.map Join.name, ∀ b ∈ joins.map Join.name,
      t.qualifiedPath? a = t.qualifiedPath? b → a = b) ↔ NamedApart joins) ∧
    ∀ a ∈ joins.map Join.name, ∀ b ∈ joins.map Join.name, t.path? a = t.path? b →
      ∃ root v w steps, t.root = some root ∧ (∀ walk, Walk joins root walk a ↔ walk = v) ∧
        (∀ walk, Walk joins root walk b ↔ walk = w) ∧ v.length = w.length ∧
        List.Forall₂ (fun i step => ∃ l, LeadsAt joins i l ∧ NamedAfter l.key step) v steps ∧
        List.Forall₂ (fun i step => ∃ l, LeadsAt joins i l ∧ NamedAfter l.key step) w steps := by
  refine ⟨Tree.path?_inj_iff h hdotless, ?_, fun a ha b hb hpath => ?_⟩
  · rw [← Tree.path?_inj_iff h hdotless]
    refine forall₂_congr fun a ha => forall₂_congr fun b hb => ?_
    rw [Tree.qualifiedPath?_eq_iff h ha hb]
  · obtain ⟨root, hroot, hrooted⟩ := Tree.exists_rootedAt h ha
    obtain ⟨v, w, steps, hv, hw, hsteps, hothers⟩ := Tree.exists_walks_of_path?_eq h hdotless hroot ha hb hpath
    exact ⟨root, v, w, steps, hroot, fun _ => hv.iff_eq hrooted.branching,
      fun _ => hw.iff_eq hrooted.branching, hsteps.length_eq.trans hothers.length_eq.symm,
      hsteps.forall₂_namedAfter, hothers.forall₂_namedAfter⟩

/-- Contacts with two owners, by foreign keys that name the same relationship. -/
def twoOwners : List Join :=
  [.base "Contact" "C", .single "C" "User" "Owner__c" "Id" "U", .single "C" "User" "Owner__rId" "Id" "V"]

/-- The two owners share a path. -/
theorem twoOwners_indistinct :
    ∃ t, Tree.resolve twoOwners = .ok t ∧ (∀ j ∈ twoOwners, ∀ l, j.Refers l → '.' ∉ l.key.toList) ∧
      t.path? "U" = some "Owner__r" ∧ t.path? "V" = some "Owner__r" ∧ ¬ NamedApart twoOwners := by
  obtain ⟨t, ht, hknown⟩ := exists_eq_ok_of_map (r := Tree.resolve twoOwners)
    (f := fun t => (t.path? "U", t.path? "V")) (b := (some "Owner__r", some "Owner__r")) (by decide +kernel)
  have hcolumns : ∀ j ∈ twoOwners, ∀ pair ∈ j.columns, '.' ∉ pair.1.toList ∧ '.' ∉ pair.2.toList := by
    decide
  have hdotless : ∀ j ∈ twoOwners, ∀ l, j.Refers l → '.' ∉ l.key.toList := by
    intro j hj l hl
    obtain ⟨pair, hpair, hkey | hkey⟩ := hl.key_mem
    · exact hkey ▸ (hcolumns j hj pair hpair).1
    · exact hkey ▸ (hcolumns j hj pair hpair).2
  have hfirst : t.path? "U" = some "Owner__r" := congrArg Prod.fst hknown
  have hsecond : t.path? "V" = some "Owner__r" := congrArg Prod.snd hknown
  refine ⟨t, ht, hdotless, hfirst, hsecond, fun happart => ?_⟩
  have hdistinct := (Tree.paths_distinct_iff ht hdotless).1.2 happart
  exact absurd (hdistinct "U" (by decide) "V" (by decide) (hfirst.trans hsecond.symm)) (by decide)

end PathQuery
