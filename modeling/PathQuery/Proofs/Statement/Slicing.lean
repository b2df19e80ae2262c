import PathQuery.Proofs.Statement.Draft
/-!
# Slices of slices, and the rows they ask for

A window stands for a part of a list of rows. A plan may be sliced again and again, each time counted from
where its window starts then. The rows of the last window are those of the first one, cut down by one slice
after the other; this holds as long as no position is too great for the number that holds it.

On the wire a window is a LIMIT and an OFFSET. `Extent` says which rows these two leave, and they leave the rows
of the window. What the query is without them is said by compiling it once more without limits.
-/

namespace PathQuery

/-! ### Rows of a window -/

/-- Rows from one position up to another, both of which may be left open. -/
structure Slice where
  low : Option UInt64 := none
  high : Option UInt64 := none

namespace Window

/-- The rows in a window: none if it ends before it starts, all to the last if it has no end. -/
def cut {α : Type} (w : Window) (rows : List α) : List α :=
  match w.high with
  | some high => (rows.take high.toNat).drop w.low.toNat
  | none => rows.drop w.low.toNat

/-- The positions that a slice names can be counted from the start of the window. -/
def Fits (w : Window) (s : Slice) : Prop :=
  ∀ n, s.low = some n ∨ s.high = some n → w.low.toNat + n.toNat < UInt64.size

/-- Slices that are made one after the other, each of the window that the last one left. -/
def FitsAll (w : Window) : List Slice → Prop
  | [] => True
  | s :: rest => w.Fits s ∧ (w.slice s.low s.high).FitsAll rest

variable {α : Type} {w : Window}

theorem toNat_clamp {n : UInt64} (hfits : w.low.toNat + n.toNat < UInt64.size) :
    (w.clamp n).toNat = w.high.elim (w.low.toNat + n.toNat) fun high => min high.toNat (w.low.toNat + n.toNat) := by
  have hsum : (w.low + n).toNat = w.low.toNat + n.toNat := by
    rw [UInt64.toNat_add]
    exact Nat.mod_eq_of_lt hfits
  cases hhigh : w.high with
  | none =>
    rw [clamp, hhigh]
    exact hsum
  | some high =>
    rw [clamp, hhigh]
    dsimp only [Option.elim]
    rw [← hsum, UInt64.toNat_min]

/-- Setting the end keeps the first rows. -/
theorem cut_until {n : UInt64} (hfits : w.low.toNat + n.toNat < UInt64.size) (rows : List α) :
    cut { w with high := some (w.clamp n) } rows = (w.cut rows).take n.toNat := by
  rw [cut, cut]
  dsimp only
  rw [toNat_clamp hfits]
  cases w.high with
  | none =>
    dsimp only [Option.elim]
    rw [List.drop_take, Nat.add_sub_cancel_left]
  | some high =>
    have hlength : min high.toNat (w.low.toNat + n.toNat) - w.low.toNat =
        min n.toNat (high.toNat - w.low.toNat) := by
      omega
    dsimp only [Option.elim]
    rw [List.drop_take, List.drop_take, List.take_take, hlength]

/-- Moving the start passes over the first rows. -/
theorem cut_from {n : UInt64} (hfits : w.low.toNat + n.toNat < UInt64.size) (rows : List α) :
    cut { w with low := w.clamp n } rows = (w.cut rows).drop n.toNat := by
  rw [cut, cut]
  dsimp only
  rw [toNat_clamp hfits]
  cases w.high with
  | none =>
    dsimp only [Option.elim]
    rw [List.drop_drop]
  | some high =>
    dsimp only [Option.elim]
    rw [List.drop_drop]
    by_cases hinside : w.low.toNat + n.toNat ≤ high.toNat
    · rw [Nat.min_eq_right hinside]
    · -- A start beyond the end leaves no row, wherever it is.
      have hlength : (rows.take high.toNat).length ≤ high.toNat := List.length_take_le _ _
      rw [List.drop_eq_nil_of_le (by omega), List.drop_eq_nil_of_le (by omega)]

end Window

/-- The rows of a slice, counted from the first. -/
def Slice.cut {α : Type} (s : Slice) (rows : List α) : List α :=
  Window.cut ⟨s.low.getD 0, s.high⟩ rows

namespace Window

variable {α : Type} {w : Window}

/-- The rows of a slice of a window are a slice of its rows. -/
theorem cut_slice {s : Slice} (hfits : w.Fits s) (rows : List α) :
    (w.slice s.low s.high).cut rows = s.cut (w.cut rows) := by
  obtain ⟨low, high⟩ := s
  cases high with
  | none =>
    cases low with
    | none => exact List.drop_zero.symm
    | some low => exact cut_from (hfits low (.inl rfl)) rows
  | some high =>
    have huntil := cut_until (hfits high (.inr rfl)) rows
    cases low with
    | none => exact huntil.trans List.drop_zero.symm
    | some low =>
      -- The end is set before the start moves, and leaves the start where it was.
      have hlow : w.low.toNat + low.toNat < UInt64.size := hfits low (.inl rfl)
      calc cut (slice w (some low) (some high)) rows
          = (cut { w with high := some (w.clamp high) } rows).drop low.toNat :=
            cut_from (w := { w with high := some (w.clamp high) }) hlow rows
        _ = ((w.cut rows).take high.toNat).drop low.toNat := by rw [huntil]

end Window

/-- A plan that is sliced again and again. -/
def Plan.sliceAll (p : Plan) (slices : List Slice) : Plan :=
  slices.foldl (fun p s => p.slice s.low s.high) p

theorem Plan.cut_sliceAll {α : Type} {slices : List Slice} {p : Plan} (hfits : p.window.FitsAll slices)
    (rows : List α) :
    (p.sliceAll slices).window.cut rows = slices.foldl (fun part s => s.cut part) (p.window.cut rows) := by
  induction slices generalizing p with
  | nil => rfl
  | cons s rest ih =>
    obtain ⟨hfirst, hrest⟩ := hfits
    rw [List.foldl_cons, ← Window.cut_slice hfirst]
    exact ih hrest

/-! ### LIMIT and OFFSET -/

/-- What is written to choose rows. -/
structure Extent where
  limit : Option Nat := none
  offset : Option Nat := none

namespace Extent

def words (e : Extent) : List String :=
  (e.limit.map fun n => "LIMIT " ++ toString n).toList ++
    (e.offset.map fun n => "OFFSET " ++ toString n).toList

/-- Rows are skipped first, and counted from there. -/
def cut {α : Type} (e : Extent) (rows : List α) : List α :=
  match e.limit with
  | some n => (rows.drop (e.offset.getD 0)).take n
  | none => rows.drop (e.offset.getD 0)

theorem dotless_of_mem_words {e : Extent} {text : String} (htext : text ∈ e.words) : '.' ∉ text.toList := by
  rw [words, List.mem_append, Option.mem_toList, Option.mem_toList] at htext
  rcases htext with htext | htext
  · obtain ⟨n, -, rfl⟩ := Option.map_eq_some_iff.1 htext
    exact Text.dot_not_mem_numbered (by decide) n
  · obtain ⟨n, -, rfl⟩ := Option.map_eq_some_iff.1 htext
    exact Text.dot_not_mem_numbered (by decide) n

end Extent

namespace Window

/-- What is written for a window where it may have no end. -/
def extent (w : Window) : Extent where
  limit := w.high.map fun high => high.toNat - w.low.toNat
  offset := if 0 < w.low then some w.low.toNat else none

theorem extent_offset (w : Window) : w.extent.offset.getD 0 = w.low.toNat := by
  rw [extent]
  dsimp only
  split
  · rfl
  · rename_i hlow
    have hzero : ¬ 0 < w.low.toNat := hlow
    rw [Option.getD_none]
    omega

theorem extent_cut {α : Type} (w : Window) (rows : List α) : w.extent.cut rows = w.cut rows := by
  rw [Extent.cut, extent_offset, cut, extent]
  dsimp only
  cases w.high with
  | none => rfl
  | some high =>
    dsimp only [Option.map_some]
    rw [List.drop_take]

theorem limitClause_eq (w : Window) : Select.limitClause none w = ⟨w.extent.words, []⟩ := by
  have hlimit : ∀ high : UInt64, (if w.low ≤ high then high - w.low else 0).toNat = high.toNat - w.low.toNat := by
    intro high
    split
    · rename_i hle
      exact UInt64.toNat_sub_of_le _ _ hle
    · rename_i hlt
      have hlt : ¬ w.low.toNat ≤ high.toNat := hlt
      change 0 = _
      omega
  rw [Select.limitClause, Extent.words, extent]
  cases w.high with
  | none =>
    dsimp only
    split
    · rfl
    · rfl
  | some high =>
    dsimp only
    rw [hlimit]
    split
    · rfl
    · rfl

end Window

/-! ### Queries with and without limits -/

/-- A query that chooses rows, beside the same query of all rows: the words stand at its end, and only a lock
comes after them. -/
def Extent.Bounds (e : Extent) (q all : Sql) : Prop :=
  ∃ head lock, lock ∈ [[], ["FOR UPDATE"], ["FOR UPDATE NOWAIT"]] ∧
    q = ⟨Text.joinWith " " (head ++ e.words ++ lock), all.params⟩ ∧ all.text = Text.joinWith " " (head ++ lock)

/-- Words that stand between the clauses of a query and its lock. -/
theorem Extent.bounds_clause (p : Plan) (e : Extent) (head : Clause) {lock : Clause}
    (hlock : lock.texts ∈ [[], ["FOR UPDATE"], ["FOR UPDATE NOWAIT"]]) :
    e.Bounds
      ⟨Text.joinWith " " (Select.unqualify p (head ++ ⟨e.words, []⟩ ++ lock).texts),
        (head ++ ⟨e.words, []⟩ ++ lock).params⟩
      ⟨Text.joinWith " " (Select.unqualify p (head ++ {} ++ lock).texts), (head ++ {} ++ lock).params⟩ := by
  have hdotless : ∀ text ∈ lock.texts, '.' ∉ text.toList := by
    intro text htext
    simp only [List.mem_cons, List.not_mem_nil, or_false] at hlock
    rcases hlock with hlock | hlock | hlock
    · rw [hlock] at htext
      cases htext
    · rw [hlock, List.mem_singleton] at htext
      rw [htext]
      decide
    · rw [hlock, List.mem_singleton] at htext
      rw [htext]
      decide
  have hsent : lock.texts.map p.onWire = lock.texts := Plan.map_onWire_dotless hdotless
  refine ⟨head.texts.map p.onWire, lock.texts, hlock, ?_, ?_⟩
  · rw [Plan.unqualify_eq_map, Clause.append_texts, Clause.append_texts, List.map_append, List.map_append,
      Plan.map_onWire_dotless fun text => dotless_of_mem_words, hsent]
    rfl
  · dsimp only
    rw [Plan.unqualify_eq_map, Clause.append_texts, Clause.append_texts, List.append_nil, List.map_append, hsent]

section Soql

variable {ctx : Context} {features : Features} {autocommit : Bool}

theorem Select.lock_texts (hbackend : ctx.backend = .soql features autocommit) {p : Plan} {lock : Clause}
    (h : lockClause ctx p = .ok lock) : lock.texts ∈ [[], ["FOR UPDATE"], ["FOR UPDATE NOWAIT"]] := by
  rw [lockClause_soql hbackend h]
  split
  · split
    · simp
    · simp
  · simp

theorem Select.assemble_bounded (hbackend : ctx.backend = .soql features autocommit) (p : Plan) (cols : Columns)
    (tree : Tree) (names : Bool) :
    Report.Matches (fun q all => q.text = "" ∨ p.window.extent.Bounds q all)
      (assemble ctx p cols tree ⟨true, names⟩) (assemble ctx p cols tree ⟨false, names⟩) := by
  have hnoLimit : ctx.backend.noLimit = none := by
    rw [hbackend]
    rfl
  rw [assemble, assemble]
  refine .bind_same fun table _ => .bind_same fun filter _ => ?_
  cases filter with
  | none => exact .pure (.inl rfl)
  | some filter =>
    refine .bind_same fun having _ => ?_
    cases having with
    | none => exact .pure (.inl rfl)
    | some having =>
      refine .bind_same fun distinct _ => .bind_same fun select _ => .bind_same fun group _ =>
        .bind_same fun explain _ => .bind_same fun order _ => .bind_same fun lock hlock => .pure (.inr ?_)
      dsimp only
      rw [hnoLimit, Window.limitClause_eq]
      exact Extent.bounds_clause p _ _ (lock_texts hbackend hlock)

theorem Compiler.compile_bounded (hbackend : ctx.backend = .soql features autocommit) {p : Plan} {memo : Memo}
    {names : Bool} {q : Sql} (h : (compile ⟨ctx, p, memo⟩ ⟨true, names⟩).1.result = .ok q) (htext : q.text ≠ "") :
    ∃ all, (compile ⟨ctx, p, memo⟩ ⟨false, names⟩).1.result = .ok all ∧ p.window.extent.Bounds q all := by
  rw [compile_recalled] at h ⊢
  split at h
  · cases h
    exact absurd rfl htext
  · rw [Bool.false_and, if_neg Bool.false_ne_true]
    dsimp only at h ⊢
    cases hresolve : (memo.resolve p.joins).1 with
    | error e =>
      rw [hresolve] at h
      cases h
    | ok tree =>
      rw [hresolve] at h
      rcases (Select.assemble_bounded hbackend p p.columns tree names).result with
        ⟨e, hfailed, -⟩ | ⟨q', all, hq, hall, hrelated⟩
      · exact absurd (h.symm.trans hfailed) nofun
      · obtain rfl := Except.ok.inj (h.symm.trans hq)
        exact ⟨all, hall, hrelated.resolve_left htext⟩

end Soql

/-- **Slices compose, and LIMIT and OFFSET select them.** -/
theorem Plan.slices_selected {p : Plan} {slices : List Slice} (hfits : p.window.FitsAll slices) :
    let sliced := p.sliceAll slices
    (∀ rows : List Row,
      sliced.window.cut rows = slices.foldl (fun part s => s.cut part) (p.window.cut rows)) ∧
    ∀ (ctx : Context) (features : Features) (autocommit : Bool) (memo : Memo) (names : Bool) (q : Sql),
      ctx.backend = .soql features autocommit →
      ((Draft.select memo ⟨true, names⟩).report ctx sliced).result = .ok q →
        (q.text = "" ∧ (sliced.window.high = some sliced.window.low ∨
          ∃ tree, (memo.resolve sliced.joins).1 = .ok tree ∧ sliced.HoldsOfNothing ctx.settings tree)) ∨
        ∃ (all : Sql) (extent : Extent),
          ((Draft.select memo ⟨false, names⟩).report ctx sliced).result = .ok all ∧
          extent.Bounds q all ∧ ∀ rows : List Row, extent.cut rows = sliced.window.cut rows := by
  intro sliced
  refine ⟨fun rows => cut_sliceAll hfits rows, ?_⟩
  intro ctx features autocommit memo names q hbackend h
  by_cases htext : q.text = ""
  · refine .inl ⟨htext, ?_⟩
    rcases (Compiler.compile_empty h htext).2 with ⟨-, hwindow⟩ | hnothing
    · exact .inl hwindow
    · exact .inr hnothing
  · obtain ⟨all, hall, hbounds⟩ := Compiler.compile_bounded hbackend h htext
    exact .inr ⟨all, sliced.window.extent, hall, hbounds, fun rows => sliced.window.extent_cut rows⟩

/-- The names of all contacts. -/
def Plan.contactNames : Plan where
  model := some { table := "Contact" }
  joins := [.base "Contact" "C"]
  select := [⟨.column "C" "Name", none⟩]

/-- Twenty names after the first ten, and of these five after the first five. -/
theorem Plan.contactNames_selected :
    let slices : List Slice := [⟨some 10, some 30⟩, ⟨some 5, some 10⟩]
    contactNames.window.FitsAll slices ∧
      (∀ rows : List Row, (contactNames.sliceAll slices).window.cut rows =
        slices.foldl (fun part s => s.cut part) (contactNames.window.cut rows)) ∧
      ∃ (q all : Sql) (extent : Extent), q.text = "SELECT Contact.Name FROM Contact LIMIT 5 OFFSET 15" ∧
        ((Draft.select {} {}).report (.of .soql {}) (contactNames.sliceAll slices)).result = .ok q ∧
        extent.Bounds q all ∧
        ∀ rows : List Row, extent.cut rows = (contactNames.sliceAll slices).window.cut rows := by
  intro slices
  have hfits : contactNames.window.FitsAll slices := by
    refine ⟨?_, ?_, trivial⟩
    · rintro n (hn | hn)
      · cases hn
        decide
      · cases hn
        decide
    · rintro n (hn | hn)
      · cases hn
        decide
      · cases hn
        decide
  obtain ⟨hrows, hselected⟩ := slices_selected hfits
  have htext : ((Draft.select {} {}).report (.of .soql {}) (contactNames.sliceAll slices)).result.toOption.map
      Sql.text = some "SELECT Contact.Name FROM Contact LIMIT 5 OFFSET 15" := by
    decide +kernel
  obtain ⟨q, hq, hqtext⟩ := exists_eq_ok_of_map htext
  refine ⟨hfits, hrows, ?_⟩
  rcases hselected _ _ _ _ _ q rfl hq with ⟨hempty, -⟩ | ⟨all, extent, -, hbounds, hcut⟩
  · rw [hqtext] at hempty
    exact absurd hempty (by decide)
  · exact ⟨q, all, extent, hqtext, hq, hbounds, hcut⟩

end PathQuery
