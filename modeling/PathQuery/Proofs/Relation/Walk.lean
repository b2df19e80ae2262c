import Mathlib.Data.List.Nodup
import Mathlib.Logic.ExistsUnique
import PathQuery.Relation.Link
/-!
# Walks along joins

The joins of a query as a directed multigraph on aliases. A join that equates a foreign key with the
primary key leads from the alias that holds the foreign key to the other one. Two joins may lead the
same way and count as two, so a walk is a list of positions in the list of joins and not of aliases.

Walks grow at their end. If nothing leads to the start of the walks and at most one join leads to any
other alias, the last step of a walk is determined by its end, and so is the walk. The converse holds
too where every alias is reached.
-/

namespace PathQuery

/-- The link that a join stands for: one of its two columns is the primary key, the other is not. -/
inductive Join.Refers : Join → Link → Prop
  | forward {parent table key name : String} (hkey : key ≠ primaryKey) :
      Join.Refers ⟨some parent, table, [(key, primaryKey)], name⟩ ⟨parent, key, name⟩
  | reverse {parent table key name : String} (hkey : key ≠ primaryKey) :
      Join.Refers ⟨some parent, table, [(primaryKey, key)], name⟩ ⟨name, key, parent⟩

theorem Join.link?_eq_some_iff {j : Join} {l : Link} : j.link? = .ok (some l) ↔ j.Refers l := by
  constructor
  · intro h
    obtain ⟨parent, table, columns, name⟩ := j
    simp only [Join.link?] at h
    split at h
    · cases h
    · cases h
    · rename_i p a b
      split at h
      · rename_i ha
        split at h
        · cases h
        · rename_i hb
          cases h
          rw [ha]
          exact .reverse hb
      · rename_i ha
        split at h
        · rename_i hb
          cases h
          rw [hb]
          exact .forward ha
        · cases h
    · cases h
  · rintro (⟨hkey⟩ | ⟨hkey⟩)
    · simp [Join.link?, hkey]
    · simp [Join.link?, hkey]

theorem Join.link?_eq_none_iff {j : Join} : j.link? = .ok none ↔ j.parent = none := by
  obtain ⟨parent, table, columns, name⟩ := j
  cases parent with
  | none => simp [Join.link?]
  | some parent =>
    rcases columns with _ | ⟨⟨a, b⟩, _ | ⟨c, rest⟩⟩
    · simp [Join.link?]
    · simp only [Join.link?]
      split <;> split <;> simp
    · simp [Join.link?]

theorem Join.Refers.unique {j : Join} {l m : Link} (hl : j.Refers l) (hm : j.Refers m) : l = m := by
  rw [← Join.link?_eq_some_iff] at hl hm
  rw [hl] at hm
  cases hm
  rfl

/-- The aliases at the two ends of a link are those that its join names. -/
theorem Join.Refers.ends {j : Join} {l : Link} (h : j.Refers l) :
    ∃ parent, j.parent = some parent ∧
      (l.top = parent ∧ l.bottom = j.name ∨ l.top = j.name ∧ l.bottom = parent) := by
  cases h with
  | forward => exact ⟨_, rfl, .inl ⟨rfl, rfl⟩⟩
  | reverse => exact ⟨_, rfl, .inr ⟨rfl, rfl⟩⟩

theorem Join.Refers.ends_iff {j : Join} {l : Link} (h : j.Refers l) {name : String} :
    l.top = name ∨ l.bottom = name ↔ j.name = name ∨ j.parent = some name := by
  cases h with
  | forward => rw [or_comm, Option.some_inj]
  | reverse => rw [Option.some_inj]

/-- The join at a position leads along a link. -/
def LeadsAt (joins : List Join) (i : Nat) (l : Link) : Prop :=
  ∃ j, joins[i]? = some j ∧ j.Refers l

theorem LeadsAt.unique {joins : List Join} {i : Nat} {l m : Link} (hl : LeadsAt joins i l)
    (hm : LeadsAt joins i m) : l = m := by
  obtain ⟨j, hj, hl⟩ := hl
  obtain ⟨k, hk, hm⟩ := hm
  rw [hj] at hk
  cases hk
  exact hl.unique hm

/-- The joins at the positions of a list lead from one alias to another, one after the other. -/
inductive Walk (joins : List Join) (start : String) : List Nat → String → Prop
  | stay : Walk joins start [] start
  | step {walk : List Nat} {i : Nat} {l : Link} (hwalk : Walk joins start walk l.top)
      (hlead : LeadsAt joins i l) : Walk joins start (walk ++ [i]) l.bottom

/-- Nothing leads to `root`, and no two joins lead to the same alias. -/
structure Branching (joins : List Join) (root : String) : Prop where
  root_free : ∀ i l, LeadsAt joins i l → l.bottom ≠ root
  incoming : ∀ i k l m, LeadsAt joins i l → LeadsAt joins k m → l.bottom = m.bottom → i = k

theorem Walk.unique {joins : List Join} {root name : String} (hbranch : Branching joins root)
    {v w : List Nat} (hv : Walk joins root v name) (hw : Walk joins root w name) : v = w := by
  induction hv generalizing w with
  | stay =>
    generalize hend : root = e at hw
    cases hw with
    | stay => rfl
    | step hwalk hlead => exact absurd hend.symm (hbranch.root_free _ _ hlead)
  | @step v i l hv hlead ih =>
    generalize hend : l.bottom = e at hw
    cases hw with
    | stay => exact absurd hend (hbranch.root_free _ _ hlead)
    | @step w k m hw hlead' =>
      have hik : i = k := hbranch.incoming i k l m hlead hlead' hend
      subst hik
      have hlm : l = m := hlead.unique hlead'
      subst hlm
      rw [ih hw]

theorem Walk.iff_eq {joins : List Join} {root name : String} {v w : List Nat} (hv : Walk joins root v name)
    (hbranch : Branching joins root) : Walk joins root w name ↔ w = v :=
  ⟨fun hw => hw.unique hbranch hv, fun heq => heq ▸ hv⟩

/-- Where every alias that joins lead from or to has exactly one walk from `root`, the joins branch
out from `root`. -/
theorem Branching.of_unique_walks {joins : List Join} {root : String}
    (hunique : ∀ i l, LeadsAt joins i l →
      (∃ w, Walk joins root w l.top) ∧ ∃! w, Walk joins root w l.bottom)
    (hroot : ∃! w, Walk joins root w root) : Branching joins root where
  root_free i l hlead hbottom := by
    obtain ⟨w, hw⟩ := (hunique i l hlead).1
    have hloop : Walk joins root (w ++ [i]) l.bottom := Walk.step hw hlead
    rw [hbottom] at hloop
    have hempty := hroot.unique hloop Walk.stay
    simp at hempty
  incoming i k l m hl hm hbottom := by
    obtain ⟨v, hv⟩ := (hunique i l hl).1
    obtain ⟨w, hw⟩ := (hunique k m hm).1
    have hvi : Walk joins root (v ++ [i]) l.bottom := Walk.step hv hl
    have hwk : Walk joins root (w ++ [k]) m.bottom := Walk.step hw hm
    rw [← hbottom] at hwk
    have heq := (hunique i l hl).2.unique hvi hwk
    exact (List.append_singleton_inj.1 heq).2

/-! ### The links of joins -/

theorem mapM_eq_ok_iff {α β ε : Type} {f : α → Except ε β} {l : List α} {results : List β} :
    l.mapM f = .ok results ↔ l.map f = results.map .ok := by
  induction l generalizing results with
  | nil => cases results <;> simp [pure, Except.pure]
  | cons a rest ih =>
    rw [List.mapM_cons, List.map_cons]
    cases ha : f a with
    | error e => cases results <;> simp [bind, Except.bind]
    | ok b =>
      cases hrest : rest.mapM f with
      | error e =>
        cases results with
        | nil => simp [bind, Except.bind]
        | cons c results =>
          have hne : rest.map f ≠ results.map .ok := by
            rw [ne_eq, ← ih, hrest]
            simp
          simp [bind, Except.bind, hne]
      | ok bs =>
        cases results with
        | nil => simp [bind, Except.bind, pure, Except.pure]
        | cons c results =>
          have hiff : rest.map f = results.map .ok ↔ bs = results := by
            rw [← ih, hrest, Except.ok.injEq]
          simp [bind, Except.bind, pure, Except.pure, hiff]

theorem exists_mapM_eq_ok {α β ε : Type} {f : α → Except ε β} {l : List α}
    (h : ∀ a ∈ l, ∃ b, f a = .ok b) : ∃ results, l.mapM f = .ok results := by
  induction l with
  | nil => exact ⟨[], rfl⟩
  | cons a rest ih =>
    obtain ⟨b, hb⟩ := h a List.mem_cons_self
    obtain ⟨bs, hbs⟩ := ih fun c hc => h c (List.mem_cons_of_mem a hc)
    refine ⟨b :: bs, mapM_eq_ok_iff.2 ?_⟩
    rw [List.map_cons, List.map_cons, hb, mapM_eq_ok_iff.1 hbs]

/-- The error is that of one of the items. -/
theorem exists_of_mapM_error {α β ε : Type} {f : α → Except ε β} {l : List α} {e : ε}
    (h : l.mapM f = .error e) : ∃ a ∈ l, f a = .error e := by
  induction l with
  | nil => cases h
  | cons a rest ih =>
    rw [List.mapM_cons] at h
    cases ha : f a with
    | error e' =>
      rw [ha] at h
      cases h
      exact ⟨a, List.mem_cons_self, ha⟩
    | ok b =>
      cases hrest : rest.mapM f with
      | error e' =>
        rw [ha, hrest] at h
        cases h
        obtain ⟨c, hc, hfc⟩ := ih hrest
        exact ⟨c, List.mem_cons_of_mem a hc, hfc⟩
      | ok bs =>
        rw [ha, hrest] at h
        cases h

section Links

variable {joins : List Join} {links : List (Option Link)}

theorem getElem?_links (hlinks : joins.mapM Join.link? = .ok links) {i : Nat} {o : Option Link} :
    links[i]? = some o ↔ ∃ j, joins[i]? = some j ∧ j.link? = .ok o := by
  have hat := congrArg (fun results => results[i]?) (mapM_eq_ok_iff.1 hlinks)
  simp only [List.getElem?_map] at hat
  rw [← Option.map_eq_some_iff, hat, Option.map_eq_some_iff]
  simp only [Except.ok.injEq, exists_eq_right]

theorem leadsAt_iff (hlinks : joins.mapM Join.link? = .ok links) {i : Nat} {l : Link} :
    LeadsAt joins i l ↔ links[i]? = some (some l) := by
  simp only [getElem?_links hlinks, Join.link?_eq_some_iff, LeadsAt]

theorem mem_links_iff (hlinks : joins.mapM Join.link? = .ok links) {l : Link} :
    l ∈ links.filterMap id ↔ ∃ i, LeadsAt joins i l := by
  rw [List.mem_filterMap]
  simp only [leadsAt_iff hlinks, id_eq, exists_eq_right, List.mem_iff_getElem?]

theorem exists_links_of_refers (h : ∀ j ∈ joins, j.parent.isSome → ∃ l, j.Refers l) :
    ∃ links, joins.mapM Join.link? = .ok links := by
  refine exists_mapM_eq_ok fun j hj => ?_
  cases hparent : j.parent with
  | none => exact ⟨none, Join.link?_eq_none_iff.2 hparent⟩
  | some parent =>
    obtain ⟨l, hrefers⟩ := h j hj (hparent ▸ rfl)
    exact ⟨some l, Join.link?_eq_some_iff.2 hrefers⟩

theorem exists_leadsAt (hlinks : joins.mapM Join.link? = .ok links) {j : Join} (hj : j ∈ joins)
    (hparent : j.parent.isSome) : ∃ i l, LeadsAt joins i l ∧ j.Refers l := by
  obtain ⟨i, hi⟩ := List.mem_iff_getElem?.1 hj
  have hat := congrArg (fun results => results[i]?) (mapM_eq_ok_iff.1 hlinks)
  simp only [List.getElem?_map, hi, Option.map_some] at hat
  obtain ⟨o, ho, hok⟩ := Option.map_eq_some_iff.1 hat.symm
  cases o with
  | none =>
    rw [Join.link?_eq_none_iff.1 hok.symm] at hparent
    cases hparent
  | some l =>
    have hrefers := Join.link?_eq_some_iff.1 hok.symm
    exact ⟨i, l, ⟨j, hi, hrefers⟩, hrefers⟩

/-- Whatever holds of each two links, the earlier one first, holds of each two joins that lead somewhere. -/
theorem pairwise_links_iff (hlinks : joins.mapM Join.link? = .ok links) {related : Link → Link → Prop} :
    (links.filterMap id).Pairwise related ↔
      ∀ i k l m, i < k → LeadsAt joins i l → LeadsAt joins k m → related l m := by
  simp only [leadsAt_iff hlinks]
  rw [List.pairwise_filterMap, List.pairwise_iff_getElem]
  constructor
  · intro h i k l m hlt hl hm
    obtain ⟨hi, hil⟩ := List.getElem?_eq_some_iff.1 hl
    obtain ⟨hk, hkm⟩ := List.getElem?_eq_some_iff.1 hm
    exact h i k hi hk hlt l hil m hkm
  · intro h i k hi hk hlt l hl m hm
    exact h i k l m hlt (List.getElem?_eq_some_iff.2 ⟨hi, hl⟩) (List.getElem?_eq_some_iff.2 ⟨hk, hm⟩)

theorem nodup_bottoms_iff (hlinks : joins.mapM Join.link? = .ok links) :
    ((links.filterMap id).map Link.bottom).Nodup ↔
      ∀ i k l m, LeadsAt joins i l → LeadsAt joins k m → l.bottom = m.bottom → i = k := by
  rw [List.Nodup, List.pairwise_map, pairwise_links_iff hlinks]
  constructor
  · intro h i k l m hl hm hbottom
    rcases Nat.lt_trichotomy i k with hlt | heq | hgt
    · exact absurd hbottom (h i k l m hlt hl hm)
    · exact heq
    · exact absurd hbottom.symm (h k i m l hgt hm hl)
  · intro h i k l m hlt hl hm hbottom
    exact absurd (h i k l m hl hm hbottom) (Nat.ne_of_lt hlt)

/-- Two links, one behind the other, come from two joins. -/
theorem exists_leadsAt_of_sublist (hlinks : joins.mapM Join.link? = .ok links) {l m : Link}
    (h : [l, m].Sublist (links.filterMap id)) : ∃ i k, i < k ∧ LeadsAt joins i l ∧ LeadsAt joins k m := by
  by_contra hnone
  have hpairs : (links.filterMap id).Pairwise fun a b => ¬ (a = l ∧ b = m) := by
    rw [pairwise_links_iff hlinks]
    rintro i k a b hlt ha hb ⟨rfl, rfl⟩
    exact hnone ⟨i, k, hlt, ha, hb⟩
  exact List.pairwise_iff_forall_sublist.1 hpairs h ⟨rfl, rfl⟩

end Links

end PathQuery
