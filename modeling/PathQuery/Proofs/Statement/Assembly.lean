import Mathlib.Data.List.Forall2
import PathQuery.Compiler
import PathQuery.Proofs.Report
/-!
# The stages of a query

A query that is not empty went through all stages of its assembly: the table, the two filters, the
selected columns, the groups and the sort keys were found one after the other. `Select.Parts` holds what
they gave, and the query is these parts in the order of the language. The warnings of the query are those
of its stages.
-/

namespace PathQuery

namespace Clause

@[simp] theorem append_texts (a b : Clause) : (a ++ b).texts = a.texts ++ b.texts := rfl

@[simp] theorem append_params (a b : Clause) : (a ++ b).params = a.params ++ b.params := rfl

@[simp] theorem word_texts (text : String) : (word text).texts = [text] := rfl

theorem listing_texts (keyword : String) (items : List String) (params : List Value) :
    (listing keyword items params).texts =
      if items.isEmpty then [] else [keyword ++ " " ++ Text.joinWith ", " items] := by
  rw [listing]
  split <;> rfl

@[simp] theorem listing_params (keyword : String) (items : List String) (params : List Value) :
    (listing keyword items params).params = params := by
  rw [listing]
  split <;> rfl

theorem condition_texts (keyword : String) (sql : Sql) :
    (condition keyword sql).texts = if sql.isEmpty then [] else [keyword ++ " " ++ sql.text] := by
  rw [condition]
  split <;> rfl

end Clause

namespace Select

/-! ### Lists of fragments -/

/-- Fragments renamed one by one. -/
def Renamed (naming : Naming) (texts names : List String) : Prop :=
  List.Forall₂ (fun text name => (naming.rename text).result = .ok name) texts names

/-- Selected columns behind their renamed texts. -/
def decorate (backend : Backend) (names : Bool) : Nat → List (Option String) → List String → List String
  | index, label :: labels, text :: texts =>
    (column backend names index label text).1 ::
      decorate backend names (column backend names index label text).2 labels texts
  | _, _, _ => []

/-- The warnings of renaming fragments one by one. -/
def warningsOf (naming : Naming) (texts : List String) : List Warning :=
  texts.flatMap fun text => (naming.rename text).warnings

theorem renameAll_ok {naming : Naming} {pieces : List Sql} {names : List String}
    (h : (renameAll naming pieces).result = .ok names) :
    Renamed naming (pieces.map Sql.text) names ∧
      (renameAll naming pieces).warnings = warningsOf naming (pieces.map Sql.text) := by
  induction pieces generalizing names with
  | nil =>
    cases h
    exact ⟨.nil, rfl⟩
  | cons piece rest ih =>
    rw [renameAll] at h ⊢
    obtain ⟨name, hname, hrest, hwarnings⟩ := Report.bind_ok h
    obtain ⟨later, hlater, hnames, hmore⟩ := Report.bind_ok hrest
    obtain ⟨hrenamed, hquiet⟩ := ih hlater
    have hone : (naming.rename piece.text).result = .ok name := Report.mapError_result_eq_ok.1 hname
    cases hnames
    refine ⟨.cons hone hrenamed, ?_⟩
    rw [hwarnings, hmore, hquiet, Report.pure_warnings, List.append_nil]
    rfl

theorem columns_cons (backend : Backend) (naming : Naming) (names : Bool) (index : Nat)
    (c : SelectedColumn) (rest : List SelectedColumn) :
    columns backend naming names index (c :: rest) = (do
      let text ← renameIn naming c.sql.text
      let later ← columns backend naming names (column backend names index c.label text).2 rest
      return (column backend names index c.label text).1 :: later) := rfl

theorem columns_ok {backend : Backend} {naming : Naming} {names : Bool} {index : Nat}
    {cols : List SelectedColumn} {texts : List String}
    (h : (columns backend naming names index cols).result = .ok texts) :
    (∃ renamed, Renamed naming (cols.map fun c => c.sql.text) renamed ∧
        texts = decorate backend names index (cols.map SelectedColumn.label) renamed) ∧
      (columns backend naming names index cols).warnings =
        warningsOf naming (cols.map fun c => c.sql.text) := by
  induction cols generalizing index texts with
  | nil =>
    cases h
    exact ⟨⟨[], .nil, rfl⟩, rfl⟩
  | cons c rest ih =>
    rw [columns_cons] at h ⊢
    obtain ⟨name, hname, hrest, hwarnings⟩ := Report.bind_ok h
    obtain ⟨later, hlater, htexts, hmore⟩ := Report.bind_ok hrest
    obtain ⟨⟨renamed, hrenamed, hdecorate⟩, hquiet⟩ := ih hlater
    have hone : (naming.rename c.sql.text).result = .ok name := Report.mapError_result_eq_ok.1 hname
    cases htexts
    refine ⟨⟨name :: renamed, .cons hone hrenamed, ?_⟩, ?_⟩
    · rw [hdecorate]
      rfl
    · rw [hwarnings, hmore, hquiet, Report.pure_warnings, List.append_nil]
      rfl

end Select

/-! ### Filters -/

theorem compileFilter_none {naming : Naming} {sql : Sql}
    (h : (compileFilter naming none).result = .ok (some sql)) : sql = .empty := by
  cases h
  rfl

/-- The text of a filter that does not hold of nothing. -/
theorem compileFilter_some {naming : Naming} {g : Filter} {sql : Sql}
    (h : (compileFilter naming (some g)).result = .ok (some sql)) :
    (sql = .empty ∧ (g.compile { rename := naming.rename }).result = .ok .everything) ∨
      ∃ resolved, (g.compile { rename := naming.rename }).result = .ok (.sql sql resolved) := by
  obtain ⟨outcome, houtcome, h, -⟩ := Report.bind_ok h
  have hcompile := Report.mapError_result_eq_ok.1 houtcome
  cases outcome with
  | everything =>
    cases h
    exact .inl ⟨rfl, hcompile⟩
  | nothing => cases h
  | sql sql resolved =>
    cases h
    exact .inr ⟨resolved, hcompile⟩

theorem compileFilter_quiet {naming : Naming} {filter : Option Filter}
    (h : ∀ g, filter = some g → (g.compile { rename := naming.rename }).warnings = []) :
    (compileFilter naming filter).warnings = [] := by
  cases filter with
  | none => rfl
  | some g =>
    refine Report.bind_quiet (h g rfl) fun outcome _ => ?_
    cases outcome <;> rfl

namespace Select

/-! ### All stages -/

structure Parts where
  table : String
  filter : Sql
  having : Sql
  distinct : Clause
  columns : List String
  groups : List String
  explain : Clause
  sorts : List String
  lock : Clause

section Stages

variable {ctx : Context} {plan : Plan} {cols : Columns} {tree : Tree} {form : SelectForm}

/-- What the stages of a query give. -/
structure Parts.Of (ctx : Context) (plan : Plan) (cols : Columns) (tree : Tree) (form : SelectForm)
    (p : Parts) : Prop where
  table : plan.table tree = .ok p.table
  filter : (compileFilter (plan.naming ctx.settings tree) plan.filter).result = .ok (some p.filter)
  having : (compileFilter (plan.naming ctx.settings tree) plan.having).result = .ok (some p.having)
  distinct : distinctClause ctx plan cols = .ok p.distinct
  columns : (Select.columns ctx.backend (plan.naming ctx.settings tree) form.columnNames 1
    cols.select).result = .ok p.columns
  groups : (renameAll (plan.naming ctx.settings tree) cols.groupBy).result = .ok p.groups
  explain : explainClause ctx plan = .ok p.explain
  sorts : (renameAll (plan.naming ctx.settings tree) (sortKeys ctx cols)).result = .ok p.sorts
  lock : lockClause ctx plan = .ok p.lock

/-- The clauses of a query in the order of the language. -/
def Parts.clause (ctx : Context) (plan : Plan) (cols : Columns) (form : SelectForm) (p : Parts) : Clause :=
  p.explain ++ .word "SELECT" ++ p.distinct ++
    ⟨[Text.joinWith ", " p.columns], cols.select.flatMap fun c => c.sql.params⟩ ++
    ⟨["FROM", p.table], []⟩ ++ .condition "WHERE" p.filter ++
    .listing "GROUP BY" p.groups (paramsOf cols.groupBy) ++ .condition "HAVING" p.having ++
    .listing "ORDER BY" p.sorts (paramsOf (sortKeys ctx cols)) ++
    (if form.limits then limitClause ctx.backend.noLimit plan.window else {}) ++ p.lock

/-- The warnings of all stages. -/
def stageWarnings (ctx : Context) (plan : Plan) (cols : Columns) (tree : Tree) : List Warning :=
  (compileFilter (plan.naming ctx.settings tree) plan.filter).warnings ++
    (compileFilter (plan.naming ctx.settings tree) plan.having).warnings ++
    warningsOf (plan.naming ctx.settings tree) (cols.select.map fun c => c.sql.text) ++
    warningsOf (plan.naming ctx.settings tree) (cols.groupBy.map Sql.text) ++
    warningsOf (plan.naming ctx.settings tree) ((sortKeys ctx cols).map Sql.text)

theorem selectClause_ok {naming : Naming} {names : Bool} {clause : Clause}
    (h : (selectClause ctx naming names cols).result = .ok clause) :
    ∃ texts, (columns ctx.backend naming names 1 cols.select).result = .ok texts ∧
      clause = ⟨[Text.joinWith ", " texts], cols.select.flatMap fun c => c.sql.params⟩ ∧
      (selectClause ctx naming names cols).warnings =
        warningsOf naming (cols.select.map fun c => c.sql.text) := by
  obtain ⟨texts, htexts, hclause, hwarnings⟩ := Report.bind_ok h
  cases hclause
  refine ⟨texts, htexts, rfl, ?_⟩
  rw [selectClause, hwarnings, (columns_ok htexts).2, Report.pure_warnings, List.append_nil]

theorem groupClause_ok {naming : Naming} {clause : Clause}
    (h : (groupClause naming cols).result = .ok clause) :
    ∃ texts, (renameAll naming cols.groupBy).result = .ok texts ∧
      clause = .listing "GROUP BY" texts (paramsOf cols.groupBy) ∧
      (groupClause naming cols).warnings = warningsOf naming (cols.groupBy.map Sql.text) := by
  obtain ⟨texts, htexts, hclause, hwarnings⟩ := Report.bind_ok h
  rw [groupClause, hwarnings, (renameAll_ok htexts).2]
  split at hclause
  · cases hclause
  · rename_i hplain
    cases hclause
    exact ⟨texts, htexts, rfl, by rw [if_neg hplain, Report.pure_warnings, List.append_nil]⟩

theorem orderClause_ok {naming : Naming} {keys : List Sql} {clause : Clause}
    (h : (orderClause naming keys).result = .ok clause) :
    ∃ texts, (renameAll naming keys).result = .ok texts ∧
      clause = .listing "ORDER BY" texts (paramsOf keys) ∧
      (orderClause naming keys).warnings = warningsOf naming (keys.map Sql.text) := by
  obtain ⟨texts, htexts, hclause, hwarnings⟩ := Report.bind_ok h
  cases hclause
  refine ⟨texts, htexts, rfl, ?_⟩
  rw [orderClause, hwarnings, (renameAll_ok htexts).2, Report.pure_warnings, List.append_nil]

theorem unqualify_eq (hmodel : ∀ m, plan.model = some m → m.tooling = false) (texts : List String) :
    unqualify plan texts = texts := by
  have hnone : plan.model.filter Model.tooling = none := by
    rw [Option.filter_eq_none_iff]
    intro m hm
    rw [hmodel m hm]
    exact Bool.false_ne_true
  rw [unqualify, hnone]

/-- A query is empty because a filter holds of nothing, or it went through all stages. -/
theorem assemble_stages {q : Sql} (h : (assemble ctx plan cols tree form).result = .ok q) :
    (q = .empty ∧ (∃ table, plan.table tree = .ok table) ∧
      ((compileFilter (plan.naming ctx.settings tree) plan.filter).result = .ok none ∨
        (compileFilter (plan.naming ctx.settings tree) plan.having).result = .ok none)) ∨
    ∃ p : Parts, p.Of ctx plan cols tree form ∧
      q = ⟨Text.joinWith " " (unqualify plan (p.clause ctx plan cols form).texts),
        (p.clause ctx plan cols form).params⟩ ∧
      (assemble ctx plan cols tree form).warnings = stageWarnings ctx plan cols tree := by
  rw [assemble] at h ⊢
  obtain ⟨table, htable, h, hw₁⟩ := Report.bind_ok h
  obtain ⟨filter, hfilter, h, hw₂⟩ := Report.bind_ok h
  cases filter with
  | none =>
    cases h
    exact .inl ⟨rfl, ⟨table, htable⟩, .inl hfilter⟩
  | some filter =>
    obtain ⟨having, hhaving, h, hw₃⟩ := Report.bind_ok h
    cases having with
    | none =>
      cases h
      exact .inl ⟨rfl, ⟨table, htable⟩, .inr hhaving⟩
    | some having =>
      obtain ⟨distinct, hdistinct, h, hw₄⟩ := Report.bind_ok h
      obtain ⟨select, hselect, h, hw₅⟩ := Report.bind_ok h
      obtain ⟨group, hgroup, h, hw₆⟩ := Report.bind_ok h
      obtain ⟨explain, hexplain, h, hw₇⟩ := Report.bind_ok h
      obtain ⟨order, horder, h, hw₈⟩ := Report.bind_ok h
      obtain ⟨lock, hlock, h, hw₉⟩ := Report.bind_ok h
      obtain ⟨columns, hcolumns, rfl, hcolumnsQuiet⟩ := selectClause_ok hselect
      obtain ⟨groups, hgroups, rfl, hgroupsQuiet⟩ := groupClause_ok hgroup
      obtain ⟨sorts, hsorts, rfl, hsortsQuiet⟩ := orderClause_ok horder
      cases h
      refine .inr ⟨⟨table, filter, having, distinct, columns, groups, explain, sorts, lock⟩,
        ⟨htable, hfilter, hhaving, hdistinct, hcolumns, hgroups, hexplain, hsorts, hlock⟩, rfl, ?_⟩
      have hlater := hw₄.trans (congrArg _ (hw₅.trans (congrArg _ (hw₆.trans (congrArg _
        (hw₇.trans (congrArg _ (hw₈.trans (congrArg _ hw₉)))))))))
      have hall := hw₁.trans (congrArg _ (hw₂.trans (congrArg _ (hw₃.trans (congrArg _ hlater)))))
      rw [hall, hcolumnsQuiet, hgroupsQuiet, hsortsQuiet]
      simp [stageWarnings, List.append_assoc]

theorem assemble_ok {q : Sql} (h : (assemble ctx plan cols tree form).result = .ok q) :
    q = .empty ∨ ∃ p : Parts, p.Of ctx plan cols tree form ∧
      q = ⟨Text.joinWith " " (unqualify plan (p.clause ctx plan cols form).texts),
        (p.clause ctx plan cols form).params⟩ ∧
      (assemble ctx plan cols tree form).warnings = stageWarnings ctx plan cols tree :=
  (assemble_stages h).imp_left And.left

/-! ### Clauses of the backend -/

variable {features : Features} {autocommit : Bool}

theorem distinctClause_soql (hbackend : ctx.backend = .soql features autocommit) {clause : Clause}
    (h : distinctClause ctx plan plan.columns = .ok clause) :
    clause = if plan.distinct then .word "DISTINCT" else {} := by
  rw [distinctClause, hbackend] at h
  split
  · rename_i hdistinct
    rw [if_pos hdistinct] at h
    cases hfields : plan.distinctOn with
    | nil =>
      simp only [Plan.columns, hfields] at h
      cases h
      rfl
    | cons e rest =>
      simp only [Plan.columns, hfields] at h
      cases h
  · rename_i hdistinct
    rw [if_neg hdistinct] at h
    cases h
    rfl

theorem explainClause_soql (hbackend : ctx.backend = .soql features autocommit) {clause : Clause}
    (h : explainClause ctx plan = .ok clause) :
    clause = if plan.explain.isSome then .word "EXPLAIN" else {} := by
  rw [explainClause, hbackend] at h
  cases hexplain : plan.explain with
  | none =>
    rw [hexplain] at h
    cases h
    rfl
  | some e =>
    rw [hexplain] at h
    dsimp only at h
    split at h
    · cases h
    · simp only [Backend.soql] at h
      split at h
      · cases h
      · split at h
        · cases h
        · cases h
        · cases h
          rfl

theorem lockClause_soql (hbackend : ctx.backend = .soql features autocommit) {clause : Clause}
    (h : lockClause ctx plan = .ok clause) :
    clause = if plan.forUpdate && features.selectForUpdate then
      .word (if plan.nowait then "FOR UPDATE NOWAIT" else "FOR UPDATE") else {} := by
  have hfeatures : ctx.backend.features = features := by
    rw [hbackend]
    rfl
  have hlock : ctx.backend.lock plan.nowait =
      if plan.nowait then "FOR UPDATE NOWAIT" else "FOR UPDATE" := by
    rw [hbackend]
    rfl
  rw [lockClause, hfeatures, hlock] at h
  split at h
  · rename_i hwanted
    rw [if_pos hwanted]
    split at h
    · cases h
    · split at h
      · cases h
      · cases h
        rfl
  · rename_i hwanted
    rw [if_neg hwanted]
    cases h
    rfl

theorem sortKeys_soql (hbackend : ctx.backend = .soql features autocommit) (cols : Columns) :
    sortKeys ctx cols = cols.orderBy := by
  rw [sortKeys, hbackend]
  split
  · rename_i hforced
    have hnone : cols.orderBy = [] := by
      rw [Bool.and_eq_true, List.isEmpty_iff] at hforced
      exact hforced.2
    rw [hnone]
    rfl
  · rfl

end Stages

end Select

/-! ### The expressions of a plan -/

namespace Plan

variable {p : Plan}

theorem mem_expressions_of_projection {item : Projection} (h : item ∈ p.projections) :
    item.expr ∈ p.expressions := by
  have hexpr : item.expr ∈ p.projections.map Projection.expr := List.mem_map_of_mem h
  simp only [expressions, List.mem_append]
  tauto

theorem mem_expressions_of_sortKey {key : SortKey} (h : key ∈ p.orderBy) : key.expr ∈ p.expressions := by
  have hexpr : key.expr ∈ p.orderBy.map SortKey.expr := List.mem_map_of_mem h
  simp only [expressions, List.mem_append]
  tauto

theorem mem_expressions_of_group {e : Expr} (h : e ∈ p.groupBy) : e ∈ p.expressions := by
  simp only [expressions, List.mem_append]
  tauto

theorem filter_or_having {filter : Option Filter} (hfilter : filter = p.filter ∨ filter = p.having) {g : Filter}
    (hg : filter = some g) : p.filter = some g ∨ p.having = some g := by
  rw [← hg]
  exact hfilter.imp Eq.symm Eq.symm

theorem mem_expressions_of_filter {g : Filter} (hg : p.filter = some g ∨ p.having = some g) {e : Expr}
    (h : e ∈ g.columns) : e ∈ p.expressions := by
  have hcolumns : e ∈ filterColumns p.filter ∨ e ∈ filterColumns p.having := by
    rcases hg with hg | hg
    · rw [hg]
      exact .inl h
    · rw [hg]
      exact .inr h
  simp only [expressions, List.mem_append]
  tauto

end Plan

/-! ### The compiler -/

/-- The memo is right about these joins if it knows them. -/
def Memo.Faithful (m : Memo) (joins : List Join) : Prop :=
  ∀ t, m.entries.lookup (key joins) = some t → Tree.resolve joins = .ok t

theorem Memo.faithful_empty (joins : List Join) : Memo.Faithful {} joins := nofun

theorem Memo.resolve_eq {m : Memo} {joins : List Join} (h : m.Faithful joins) :
    (m.resolve joins).1 = Tree.resolve joins := by
  rw [Memo.resolve]
  split
  · rename_i t ht
    exact (h t ht).symm
  · split
    · rename_i hresolve
      exact hresolve.symm
    · rename_i hresolve
      exact hresolve.symm

theorem Compiler.tree_eq {c : Compiler} (h : c.memo.Faithful c.plan.joins) :
    c.tree = ((Tree.resolve c.plan.joins).mapError .relation,
      { c with memo := (c.memo.resolve c.plan.joins).2 }) := by
  rw [tree, ← Memo.resolve_eq h]

/-- Counting references changes nothing else in a plan. -/
theorem Plan.foldl_refer (names : List String) (p : Plan) :
    ∃ references, names.foldl Plan.refer p = p.withReferences references := by
  induction names generalizing p with
  | nil => exact ⟨p.references, rfl⟩
  | cons name rest ih =>
    obtain ⟨references, hrest⟩ := ih (p.refer name)
    exact ⟨references, hrest⟩

/-- Compiling asks the memo for the tree and assembles the query, unless no row is wanted. -/
theorem Compiler.compile_recalled (c : Compiler) (form : SelectForm) :
    (c.compile form).1 =
      if form.limits && c.plan.window.isEmpty then pure .empty
      else
        match (c.memo.resolve c.plan.joins).1 with
        | .error e => .fail (.relation e)
        | .ok tree => Select.assemble c.context c.plan c.plan.columns tree form := by
  obtain ⟨references, hplan⟩ := Plan.foldl_refer (c.plan.expressions.filterMap Expr.source?) c.plan
  have hcompile : (c.compile form).1 =
      (compileCounted { c with plan := c.plan.withReferences references } c.plan.columns form).1 := by
    rw [← hplan]
    rfl
  rw [hcompile, compileCounted, tree]
  by_cases hwindow : form.limits && c.plan.window.isEmpty
  · rw [if_pos hwindow]
    exact congrArg Prod.fst (if_pos hwindow)
  · rw [if_neg hwindow]
    refine (congrArg Prod.fst (if_neg hwindow)).trans ?_
    -- Counting references changes neither the joins nor anything that is assembled.
    have hjoins : (c.plan.withReferences references).joins = c.plan.joins := rfl
    dsimp only
    rw [hjoins]
    cases (c.memo.resolve c.plan.joins).1 with
    | error e => rfl
    | ok tree => rfl

/-- Compiling resolves the joins and assembles the query, unless no row is wanted. -/
theorem Compiler.compile_eq {c : Compiler} (hmemo : c.memo.Faithful c.plan.joins) (form : SelectForm) :
    (c.compile form).1 =
      if form.limits && c.plan.window.isEmpty then pure .empty
      else
        match Tree.resolve c.plan.joins with
        | .error e => .fail (.relation e)
        | .ok tree => Select.assemble c.context c.plan c.plan.columns tree form := by
  rw [compile_recalled, Memo.resolve_eq hmemo]

theorem Compiler.compile_ok {c : Compiler} {form : SelectForm} (hmemo : c.memo.Faithful c.plan.joins)
    {q : Sql} (h : (c.compile form).1.result = .ok q) :
    q = .empty ∨ ∃ tree, Tree.resolve c.plan.joins = .ok tree ∧
      (c.compile form).1 = Select.assemble c.context c.plan c.plan.columns tree form := by
  rw [compile_eq hmemo form] at h ⊢
  split at h
  · cases h
    exact .inl rfl
  · rename_i hwindow
    rw [if_neg hwindow]
    cases hresolve : Tree.resolve c.plan.joins with
    | error e =>
      rw [hresolve] at h
      cases h
    | ok tree => exact .inr ⟨tree, rfl, rfl⟩

end PathQuery
