import Mathlib.Data.Set.Card
import PathQuery.Proofs.Condition.Places
import PathQuery.Proofs.Statement.Assembly
/-!
# Counting references

Preparing a plan renders its columns and counts its references. What is to be counted is said here without the
lists that are walked for it: a spot of a plan is a place in one of the seven parts that may refer to aliases,
and an alias occurs at the spots whose expression is a column of it, under any nesting of calls. The count of
each alias goes up by the number of its occurrences.

The argument lists every spot once, in the order in which the expressions are walked, so that occurrences can
be counted along the list. One reference raises one count by one, and a run of references raises it by their
number.
-/

namespace PathQuery

namespace Expr

/-- Calls around an expression, the first function outermost. -/
def within (functions : List String) (e : Expr) : Expr :=
  functions.foldr .call e

/-- The expression is a column of the aliased table, under any nesting of calls. -/
def Reads (e : Expr) (name : String) : Prop :=
  ∃ functions field, e = within functions (.column name field)

theorem source?_within (functions : List String) (e : Expr) : (within functions e).source? = e.source? := by
  induction functions with
  | nil => rfl
  | cons function rest ih => exact ih

theorem source?_eq_some_iff {e : Expr} {name : String} : e.source? = some name ↔ e.Reads name := by
  constructor
  · intro h
    induction e with
    | column source field =>
      cases h
      exact ⟨[], field, rfl⟩
    | call function argument ih =>
      obtain ⟨functions, field, hargument⟩ := ih h
      exact ⟨function :: functions, field, congrArg (call function) hargument⟩
    | countAll | raw => cases h
  · rintro ⟨functions, field, rfl⟩
    exact source?_within functions _

/-- What stands inside of all calls, as text. -/
inductive Innermost : Expr → Sql → Prop
  | column (source field : String) : Innermost (.column source field) (.plain (source ++ "." ++ field))
  | countAll : Innermost .countAll (.plain "COUNT(Id)")
  | raw (sql : Sql) : Innermost (.raw sql) sql

/-- The fragment of an expression: the openings of its calls, what stands inside, and as many closings. -/
def WrittenAs (e : Expr) (sql : Sql) : Prop :=
  ∃ functions core inner, e = within functions core ∧ core.Innermost inner ∧
    sql.text = Text.joinWith "" (functions.map (· ++ "(")) ++ inner.text ++
      String.ofList (List.replicate functions.length ')') ∧
    sql.params = inner.params

theorem Innermost.writtenAs {core : Expr} {sql : Sql} (h : core.Innermost sql) : core.WrittenAs sql :=
  ⟨[], core, sql, rfl, h, by simp [Text.joinWith], rfl⟩

theorem render_writtenAs (e : Expr) : e.WrittenAs e.render := by
  induction e with
  | column source field => exact (Innermost.column source field).writtenAs
  | call function argument ih =>
    obtain ⟨functions, core, inner, hargument, hcore, htext, hparams⟩ := ih
    refine ⟨function :: functions, core, inner, congrArg (call function) hargument, hcore, ?_, hparams⟩
    show function ++ "(" ++ argument.render.text ++ ")" = _
    rw [htext, List.map_cons, Text.joinWith_empty_cons, List.length_cons, List.replicate_succ',
      String.ofList_append]
    simp only [String.append_assoc]
  | countAll => exact Innermost.countAll.writtenAs
  | raw sql => exact (Innermost.raw sql).writtenAs

end Expr

/-- The fragment of a sort key: that of its expression, and the direction. -/
def SortKey.WrittenAs (key : SortKey) (sql : Sql) : Prop :=
  ∃ inner : Sql, key.expr.WrittenAs inner ∧
    sql.text = inner.text ++ " " ++ sortText key.descending key.nulls ∧ sql.params = inner.params

namespace Plan

/-! ### Spots -/

/-- The parts of a plan that may refer to aliases. -/
inductive Part
  | select
  | extraSelect
  | orderBy
  | groupBy
  | distinctOn
  | filter
  | having
  deriving DecidableEq

/-- A place in a part. In a list it is the position of an item, in a filter the branches to a lookup. -/
abbrev Spot := Part × Place

/-- The expression at a spot. -/
inductive Has (p : Plan) : Spot → Expr → Prop
  | select {i : Nat} {item : Projection} (h : p.select[i]? = some item) : Has p (.select, [i]) item.expr
  | extraSelect {i : Nat} {item : Projection} (h : p.extraSelect[i]? = some item) :
    Has p (.extraSelect, [i]) item.expr
  | orderBy {i : Nat} {key : SortKey} (h : p.orderBy[i]? = some key) : Has p (.orderBy, [i]) key.expr
  | groupBy {i : Nat} {e : Expr} (h : p.groupBy[i]? = some e) : Has p (.groupBy, [i]) e
  | distinctOn {i : Nat} {e : Expr} (h : p.distinctOn[i]? = some e) : Has p (.distinctOn, [i]) e
  | filter {g : Filter} {place : Place} {l : Lookup} (hfilter : p.filter = some g)
    (h : g.HasAt place (.lookup l)) : Has p (.filter, place) l.lhs
  | having {g : Filter} {place : Place} {l : Lookup} (hhaving : p.having = some g)
    (h : g.HasAt place (.lookup l)) : Has p (.having, place) l.lhs

/-- The occurrences of an alias: the expressions that read it, each with its spot. -/
def occurrences (p : Plan) (name : String) : Set (Spot × Expr) :=
  {entry | p.Has entry.1 entry.2 ∧ entry.2.Reads name}

/-! ### A list of all spots -/

section Numbered

variable {α : Type}

/-- The expressions of the items of a list, each at its position. -/
def numbered (expr : α → Expr) (items : List α) : List (Place × Expr) :=
  items.zipIdx.map fun entry => ([entry.2], expr entry.1)

variable {expr : α → Expr} {items : List α}

theorem map_snd_numbered : (numbered expr items).map Prod.snd = items.map expr := by
  conv_rhs => rw [← List.zipIdx_map_fst 0 items]
  rw [numbered, List.map_map, List.map_map]
  rfl

theorem nodup_numbered : ((numbered expr items).map Prod.fst).Nodup := by
  have hplaces : (numbered expr items).map Prod.fst = (List.range' 0 items.length).map fun i => [i] := by
    rw [numbered, ← List.zipIdx_map_snd 0 items, List.map_map, List.map_map]
    rfl
  rw [hplaces]
  exact List.Nodup.map (fun i j hij => List.head_eq_of_cons_eq hij) (List.nodup_range' 1)

theorem mem_numbered_iff {place : Place} {e : Expr} :
    (place, e) ∈ numbered expr items ↔ ∃ i item, place = [i] ∧ items[i]? = some item ∧ expr item = e := by
  rw [numbered, List.mem_map]
  constructor
  · rintro ⟨⟨item, i⟩, hitem, hentry⟩
    cases hentry
    exact ⟨i, item, rfl, List.mem_zipIdx_iff_getElem?.1 hitem, rfl⟩
  · rintro ⟨i, item, rfl, hitem, rfl⟩
    exact ⟨(item, i), List.mem_zipIdx_iff_getElem?.2 hitem, rfl⟩

end Numbered

/-- The columns of the lookups of a filter, if there is one, each at its place. -/
def placedIn (filter : Option Filter) : List (Place × Expr) :=
  filter.elim [] Filter.placedColumns

/-- The expressions of a part, in order, each at its place. -/
def placed (p : Plan) : Part → List (Place × Expr)
  | .select => numbered Projection.expr p.select
  | .extraSelect => numbered Projection.expr p.extraSelect
  | .orderBy => numbered SortKey.expr p.orderBy
  | .groupBy => numbered id p.groupBy
  | .distinctOn => numbered id p.distinctOn
  | .filter => placedIn p.filter
  | .having => placedIn p.having

theorem map_snd_placedIn (filter : Option Filter) : (placedIn filter).map Prod.snd = filterColumns filter := by
  cases filter with
  | none => rfl
  | some g => exact g.map_snd_placedColumns

theorem nodup_placedIn (filter : Option Filter) : ((placedIn filter).map Prod.fst).Nodup := by
  cases filter with
  | none => exact List.nodup_nil
  | some g => exact g.nodup_placedColumns

theorem mem_placedIn_iff {filter : Option Filter} {place : Place} {e : Expr} :
    (place, e) ∈ placedIn filter ↔
      ∃ g l, filter = some g ∧ g.HasAt place (.lookup l) ∧ l.lhs = e := by
  cases filter with
  | none => simp [placedIn]
  | some g => simp [placedIn, Filter.mem_placedColumns_iff]

theorem nodup_placed (p : Plan) (part : Part) : ((p.placed part).map Prod.fst).Nodup := by
  cases part with
  | select | extraSelect | orderBy | groupBy | distinctOn => exact nodup_numbered
  | filter | having => exact nodup_placedIn _

theorem mem_placed_iff {p : Plan} {part : Part} {place : Place} {e : Expr} :
    (place, e) ∈ p.placed part ↔ p.Has (part, place) e := by
  constructor
  · intro hplaced
    cases part with
    | select =>
      obtain ⟨i, item, rfl, hitem, rfl⟩ := mem_numbered_iff.1 hplaced
      exact .select hitem
    | extraSelect =>
      obtain ⟨i, item, rfl, hitem, rfl⟩ := mem_numbered_iff.1 hplaced
      exact .extraSelect hitem
    | orderBy =>
      obtain ⟨i, key, rfl, hkey, rfl⟩ := mem_numbered_iff.1 hplaced
      exact .orderBy hkey
    | groupBy =>
      obtain ⟨i, e, rfl, he, rfl⟩ := mem_numbered_iff.1 hplaced
      exact .groupBy he
    | distinctOn =>
      obtain ⟨i, e, rfl, he, rfl⟩ := mem_numbered_iff.1 hplaced
      exact .distinctOn he
    | filter =>
      obtain ⟨g, l, hfilter, hat, rfl⟩ := mem_placedIn_iff.1 hplaced
      exact .filter hfilter hat
    | having =>
      obtain ⟨g, l, hhaving, hat, rfl⟩ := mem_placedIn_iff.1 hplaced
      exact .having hhaving hat
  · intro hhas
    cases hhas with
    | select h | extraSelect h | orderBy h | groupBy h | distinctOn h =>
      exact mem_numbered_iff.2 ⟨_, _, rfl, h, rfl⟩
    | filter hfilter h => exact mem_placedIn_iff.2 ⟨_, _, hfilter, h, rfl⟩
    | having hhaving h => exact mem_placedIn_iff.2 ⟨_, _, hhaving, h, rfl⟩

/-- The parts in the order in which their expressions are walked. -/
def parts : List Part :=
  [.select, .extraSelect, .orderBy, .groupBy, .distinctOn, .filter, .having]

theorem mem_parts (part : Part) : part ∈ parts := by
  cases part <;> decide

/-- Every spot of a plan with its expression. -/
def spots (p : Plan) : List (Spot × Expr) :=
  parts.flatMap fun part => (p.placed part).map fun entry => ((part, entry.1), entry.2)

theorem mem_spots_iff {p : Plan} {spot : Spot} {e : Expr} : (spot, e) ∈ p.spots ↔ p.Has spot e := by
  obtain ⟨part, place⟩ := spot
  rw [spots, List.mem_flatMap, ← mem_placed_iff]
  constructor
  · rintro ⟨there, -, hmem⟩
    obtain ⟨entry, hentry, heq⟩ := List.mem_map.1 hmem
    cases heq
    exact hentry
  · intro hplaced
    exact ⟨part, mem_parts part, List.mem_map.2 ⟨(place, e), hplaced, rfl⟩⟩

theorem map_spots {β : Type} (f : Spot × Expr → β) (p : Plan) :
    p.spots.map f = parts.flatMap fun part => (p.placed part).map fun entry => f ((part, entry.1), entry.2) := by
  rw [spots, List.map_flatMap]
  refine congrArg (parts.flatMap ·) (funext fun part => ?_)
  exact List.map_map

theorem nodup_spots (p : Plan) : p.spots.Nodup := by
  -- No two entries have the same spot, whatever stands there.
  refine List.Nodup.of_map Prod.fst ?_
  rw [map_spots, List.nodup_flatMap]
  constructor
  · intro part _
    have hplaces := (p.nodup_placed part).map (Prod.mk_right_injective part)
    rwa [List.map_map] at hplaces
  · have hparts : parts.Nodup := by decide
    refine hparts.imp fun {part other} hne spot hspot hother => hne ?_
    obtain ⟨entry, -, rfl⟩ := List.mem_map.1 hspot
    obtain ⟨entry', -, hsame⟩ := List.mem_map.1 hother
    exact (congrArg Prod.fst hsame).symm

theorem map_snd_spots (p : Plan) : p.spots.map Prod.snd = p.expressions := by
  have hparts : p.spots.map Prod.snd = parts.flatMap fun part => (p.placed part).map Prod.snd := map_spots ..
  rw [hparts]
  simp [parts, placed, map_snd_numbered, map_snd_placedIn, expressions, projections]

/-- An alias occurs as often as it is the source of one of the plan's expressions. -/
theorem ncard_occurrences (p : Plan) (name : String) :
    (p.occurrences name).Finite ∧
      (p.occurrences name).ncard = (p.expressions.filterMap Expr.source?).count name := by
  classical
  let listed := p.spots.filter fun entry => entry.2.source? == some name
  have hlisted : p.occurrences name = listed.toFinset := by
    ext entry
    rw [Finset.mem_coe, List.mem_toFinset, List.mem_filter, beq_iff_eq, mem_spots_iff,
      Expr.source?_eq_some_iff]
    rfl
  have hnodup : listed.Nodup := p.nodup_spots.filter _
  rw [hlisted]
  refine ⟨Finset.finite_toSet _, ?_⟩
  rw [Set.ncard_coe_finset, List.toFinset_card_of_nodup hnodup, List.count_filterMap, ← map_snd_spots,
    List.countP_map, List.countP_eq_length_filter]
  rfl

end Plan

/-! ### Counts -/

/-- What `n` references make of a count: none leave it as it is, or absent. Counts are words and add up as such. -/
structure Raised (n : Nat) (before after : Option UInt64) : Prop where
  kept : n = 0 → after = before
  entered : 0 < n → after = some (before.getD 0 + .ofNat n)

namespace Raised

theorem zero (count : Option UInt64) : Raised 0 count count :=
  ⟨fun _ => rfl, fun h => absurd h (Nat.lt_irrefl 0)⟩

theorem one (count : Option UInt64) : Raised 1 count (some (count.getD 0 + 1)) :=
  ⟨fun h => absurd h Nat.one_ne_zero, fun _ => rfl⟩

theorem trans {m n : Nat} {first second third : Option UInt64} (hfirst : Raised m first second)
    (hsecond : Raised n second third) : Raised (m + n) first third := by
  obtain rfl | hn := Nat.eq_zero_or_pos n
  · rw [hsecond.kept rfl]
    exact hfirst
  · refine ⟨fun hsum => absurd hsum (by omega), fun _ => ?_⟩
    rw [hsecond.entered hn]
    obtain rfl | hm := Nat.eq_zero_or_pos m
    · rw [hfirst.kept rfl, Nat.zero_add]
    · rw [hfirst.entered hm, Option.getD_some, UInt64.ofNat_add, UInt64.add_assoc]

/-- Where the sum fits into a word, it is the sum of numbers. -/
theorem toNat_eq {n : Nat} {before after : Option UInt64} (h : Raised n before after)
    (hfits : (before.getD 0).toNat + n < UInt64.size) :
    (after.getD 0).toNat = (before.getD 0).toNat + n := by
  obtain rfl | hn := Nat.eq_zero_or_pos n
  · rw [h.kept rfl, Nat.add_zero]
  · have hword : (UInt64.ofNat n).toNat = n := UInt64.toNat_ofNat_of_lt' (by omega)
    rw [h.entered hn, Option.getD_some, UInt64.toNat_add, hword]
    exact Nat.mod_eq_of_lt hfits

end Raised

namespace Plan

/-- How often a plan says that an alias is referred to. -/
def countOf (p : Plan) (name : String) : Nat :=
  ((p.references.get? name).getD 0).toNat

theorem refer_raises (p : Plan) (name other : String) :
    Raised ([name].count other) (p.references.get? other) ((p.refer name).references.get? other) := by
  rw [refer, Dict.get?_insert]
  by_cases hsame : other = name
  · subst hsame
    rw [if_pos rfl, List.count_singleton_self]
    exact .one _
  · rw [if_neg hsame, List.count_singleton, if_neg (by simpa using Ne.symm hsame)]
    exact .zero _

theorem foldl_refer_raises (names : List String) (p : Plan) (other : String) :
    Raised (names.count other) (p.references.get? other) ((names.foldl refer p).references.get? other) := by
  induction names generalizing p with
  | nil => exact .zero _
  | cons name rest ih =>
    rw [List.foldl_cons, ← List.singleton_append, List.count_append]
    exact (p.refer_raises name other).trans (ih (p.refer name))

/-- One fragment to each item of the lists of a plan, in the plan's order. -/
structure Prepared (p : Plan) (cols : Columns) : Prop where
  select : List.Forall₂ (fun item column => item.expr.WrittenAs column.sql ∧ column.label = item.label)
    (p.select ++ p.extraSelect) cols.select
  orderBy : List.Forall₂ SortKey.WrittenAs p.orderBy cols.orderBy
  groupBy : List.Forall₂ Expr.WrittenAs p.groupBy cols.groupBy
  distinctOn : ∃ fragments, List.Forall₂ Expr.WrittenAs p.distinctOn fragments ∧
    cols.distinctOn = fragments.map Sql.text ∧ cols.distinctParams = fragments.flatMap Sql.params

theorem forall₂_map {α β : Type} {related : α → β → Prop} {f : α → β} (h : ∀ a, related a (f a))
    (l : List α) : List.Forall₂ related l (l.map f) :=
  List.forall₂_map_right_iff.2 (List.forall₂_same.2 fun a _ => h a)

theorem columns_prepared (p : Plan) : p.Prepared p.columns where
  select := forall₂_map (fun item => ⟨item.expr.render_writtenAs, rfl⟩) _
  orderBy := forall₂_map (fun key => ⟨_, key.expr.render_writtenAs, rfl, rfl⟩) _
  groupBy := forall₂_map Expr.render_writtenAs _
  distinctOn := by
    refine ⟨p.distinctOn.map Expr.render, forall₂_map Expr.render_writtenAs _, ?_, ?_⟩
    · exact (List.map_map ..).symm
    · exact (List.flatMap_map ..).symm

/-- **Every reference is counted.** -/
theorem references_counted (p : Plan) :
    let counted := p.prepare.2
    (∀ name,
      let n := (p.occurrences name).ncard
      (p.occurrences name).Finite ∧
      Raised n (p.references.get? name) (counted.references.get? name) ∧
      (p.countOf name + n < UInt64.size → counted.countOf name = p.countOf name + n)) ∧
    counted = p.withReferences counted.references ∧
    p.Prepared p.prepare.1 := by
  intro counted
  refine ⟨fun name => ?_, ?_, p.columns_prepared⟩
  · obtain ⟨hfinite, hnumber⟩ := p.ncard_occurrences name
    have hraised := foldl_refer_raises (p.expressions.filterMap Expr.source?) p name
    rw [← hnumber] at hraised
    exact ⟨hfinite, hraised, hraised.toNat_eq⟩
  · obtain ⟨references, hcounted⟩ := foldl_refer (p.expressions.filterMap Expr.source?) p
    show p.prepare.2 = p.withReferences p.prepare.2.references
    rw [prepare, hcounted]
    rfl

/-- Contacts of large accounts, or without an owner. Accounts were referred to once before. -/
def contactsOfLargeAccounts : Plan where
  references := .ofList [("A", 1), ("Z", 3)]
  select := [⟨.column "C" "Name", none⟩, ⟨.call "MAX" (.call "ABS" (.column "A" "Revenue")), some "top"⟩]
  extraSelect := [⟨.countAll, none⟩]
  orderBy := [.descendingBy (.column "A" "Name")]
  groupBy := [.column "C" "Name"]
  filter := some (.all [
    .lookup ⟨.column "C" "Name", .isNull, .single (.bool false)⟩,
    .group (.any [
      .lookup ⟨.column "A" "Revenue", .gt, .single (.integer 9)⟩,
      .group (.all [.lookup ⟨.column "U" "Id", .isNull, .single (.bool true)⟩])])])
  having := some (.all [.lookup ⟨.call "MAX" (.column "A" "Revenue"), .lt, .single (.integer 99)⟩])

/-- Accounts are read under two calls, in the order, inside of the filter and under a call after grouping. The
alias `Z` is not read anywhere. -/
theorem contactsOfLargeAccounts_counted :
    contactsOfLargeAccounts.countOf "A" = 1 ∧ (contactsOfLargeAccounts.occurrences "A").ncard = 4 ∧
      contactsOfLargeAccounts.prepare.2.countOf "A" = 5 ∧
      contactsOfLargeAccounts.prepare.2.references.get? "Z" = some 3 := by
  have hbefore : contactsOfLargeAccounts.countOf "A" = 1 := by decide +kernel
  have hnumber : (contactsOfLargeAccounts.occurrences "A").ncard = 4 :=
    (contactsOfLargeAccounts.ncard_occurrences "A").2.trans (by decide +kernel)
  have hunread : (contactsOfLargeAccounts.occurrences "Z").ncard = 0 :=
    (contactsOfLargeAccounts.ncard_occurrences "Z").2.trans (by decide +kernel)
  obtain ⟨hcounts, -⟩ := references_counted contactsOfLargeAccounts
  have hafter := (hcounts "A").2.2
  rw [hnumber, hbefore] at hafter
  exact ⟨hbefore, hnumber, hafter (by decide), (hcounts "Z").2.1.kept hunread⟩

end Plan

end PathQuery
