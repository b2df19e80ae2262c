import PathQuery.Proofs.Statement.Parallel
/-!
# Tooling objects

Columns of a tooling object take no table qualification: what is erased from the assembled query is the
object's table with the dot behind it, wherever it occurs. This is meant for the qualifiers, and it leaves the
query that comes from naming without the root's table. But a relationship may end with the name of the table
too, and is then erased with it.
-/

namespace PathQuery

open Text (IsWord joinWith Piecewise eraseAll)

/-- The same plan on a table of the ordinary interface, with the root's table left out. -/
def Plan.asMinimal (p : Plan) : Plan :=
  { p with
    model := p.model.map fun m => { m with tooling := false }
    options := { p.options with minimal := true } }

/-- The query with its text changed. -/
def Sql.withText (f : String → String) (q : Sql) : Sql :=
  { q with text := f q.text }

theorem Sql.withText_empty {f : String → String} (hf : Piecewise f) : Sql.empty.withText f = .empty :=
  congrArg (Sql.mk · []) (hf.plain "" (by simp))

theorem Plan.asMinimal_table (p : Plan) (tree : Tree) : p.asMinimal.table tree = p.table tree := by
  rw [Plan.table, Plan.table]
  cases tree.rootTable? with
  | some table => rfl
  | none =>
    cases hmodel : p.model with
    | none => simp [asMinimal, hmodel]
    | some m => simp [asMinimal, hmodel]

namespace Select

variable {f g : String → String} (hf : Piecewise f) (hg : Piecewise g) {ctx : Context} {p : Plan} {tree : Tree}
  {features : Features} {autocommit : Bool}

include hf hg

/-! ### Stages without columns -/

theorem distinctClause_alike (hbackend : ctx.backend = .soql features autocommit) :
    Report.Matches (Clause.Alike f g) (.ofExcept (distinctClause ctx p p.columns))
      (.ofExcept (distinctClause ctx p.asMinimal p.columns)) := by
  refine .refl fun clause hclause => .plain hf hg ?_
  rw [distinctClause_soql hbackend hclause]
  split <;> simp [Clause.word]

theorem explainClause_alike (hbackend : ctx.backend = .soql features autocommit) :
    Report.Matches (Clause.Alike f g) (.ofExcept (explainClause ctx p))
      (.ofExcept (explainClause ctx p.asMinimal)) := by
  refine .refl fun clause hclause => .plain hf hg ?_
  rw [explainClause_soql hbackend hclause]
  split <;> simp [Clause.word]

theorem lockClause_alike (hbackend : ctx.backend = .soql features autocommit) :
    Report.Matches (Clause.Alike f g) (.ofExcept (lockClause ctx p))
      (.ofExcept (lockClause ctx p.asMinimal)) := by
  refine .refl fun clause hclause => .plain hf hg ?_
  rw [lockClause_soql hbackend hclause]
  split
  · cases p.nowait <;> simp [Clause.word]
  · simp

theorem limitClause_alike (noLimit : Option UInt64) (w : Window) :
    (limitClause noLimit w).Alike f g (limitClause noLimit w) := by
  have hnumber : ∀ {keyword : String}, '.' ∉ keyword.toList → ∀ k : UInt64,
      (Clause.word (keyword ++ toString k.toNat)).Alike f g (Clause.word (keyword ++ toString k.toNat)) := by
    intro keyword hkeyword k
    exact .plain hf hg (List.forall_mem_singleton.2 (Text.dot_not_mem_numbered hkeyword k.toNat))
  have hlimit := fun k => hnumber (show '.' ∉ "LIMIT ".toList by decide) k
  have hoffset := hnumber (show '.' ∉ "OFFSET ".toList by decide) w.low
  rw [limitClause]
  cases w.high with
  | some high =>
    refine (hlimit _).append ?_
    split
    · exact hoffset
    · exact ⟨rfl, rfl⟩
  | none =>
    dsimp only
    split
    · cases noLimit with
      | none => exact Clause.Alike.append ⟨rfl, rfl⟩ hoffset
      | some k => exact (hlimit k).append hoffset
    · exact ⟨rfl, rfl⟩

section Named

/-! ### Stages with columns -/

variable {n m : Naming} (hn : Tree.resolve p.joins = .ok n.tree) (hm : Tree.resolve p.joins = .ok m.tree)
  (hplain : p.Plain)
  (hcolumns : ∀ e ∈ p.expressions, ∀ source, e.source? = some source → n.AlikeOn f g m source)

include hn hm hplain hcolumns

theorem selectClause_alike (hbackend : ctx.backend = .soql features autocommit)
    (hlabels : ∀ item ∈ p.projections, ∀ label, item.label = some label → f label = g label) (names : Bool) :
    Report.Matches (Clause.Alike f g) (selectClause ctx n names p.columns)
      (selectClause ctx m names p.columns) := by
  have hitems : ∀ item ∈ p.projections, item.expr.Plain (p.joins.map Join.name) :=
    fun item hitem => hplain.expressions _ (Plan.mem_expressions_of_projection hitem)
  have hspelled : ∀ n : Naming, Tree.resolve p.joins = .ok n.tree →
      columns ctx.backend n names 1 p.columns.select =
        pure (Projection.spellAll n names 1 p.projections) := by
    intro n hn
    rw [hbackend]
    exact columns_plain hn hitems names 1
  rw [selectClause, selectClause, hspelled n hn, hspelled m hm]
  refine .pure ⟨congrArg (fun text => [text]) ?_, rfl⟩
  rw [hf.listed, hg.listed, Projection.spellAll_alike hf hg ?_ hlabels]
  intro item hitem
  have hmem := Plan.mem_expressions_of_projection hitem
  exact Expr.substitute_alike hf hg (hitems item hitem) (hcolumns _ hmem)

theorem groupClause_alike :
    Report.Matches (Clause.Alike f g) (groupClause n p.columns) (groupClause m p.columns) := by
  have hspelled : ∀ n : Naming, Tree.resolve p.joins = .ok n.tree →
      renameAll n p.columns.groupBy = pure (p.groupBy.map fun e => (e.substitute n).render.text) :=
    fun n hn => renameAll_eq fun e he =>
      Expr.rename_render_alone hn (hplain.expressions e (Plan.mem_expressions_of_group he))
  have hgroups : Report.Matches (fun texts others => texts.map f = others.map g)
      (renameAll n p.columns.groupBy) (renameAll m p.columns.groupBy) := by
    rw [hspelled n hn, hspelled m hm]
    refine .pure ?_
    rw [List.map_map, List.map_map]
    refine List.map_congr_left fun e he => ?_
    have hmem := Plan.mem_expressions_of_group he
    exact Expr.substitute_alike hf hg (hplain.expressions e hmem) (hcolumns e hmem)
  refine hgroups.bind fun texts others htexts => ?_
  have hempty : texts.isEmpty = others.isEmpty := by
    rw [← List.isEmpty_map, htexts, List.isEmpty_map]
  rw [hempty]
  split
  · exact .fail _
  · exact .pure (.listing hf hg (by decide) htexts _)

theorem orderClause_alike (hbackend : ctx.backend = .soql features autocommit) :
    Report.Matches (Clause.Alike f g) (orderClause n (sortKeys ctx p.columns))
      (orderClause m (sortKeys ctx p.columns)) := by
  have hkeys : ∀ key ∈ p.orderBy, key.expr.Plain (p.joins.map Join.name) :=
    fun key hkey => hplain.expressions _ (Plan.mem_expressions_of_sortKey hkey)
  have hspelled : ∀ n : Naming, Tree.resolve p.joins = .ok n.tree →
      renameAll n p.columns.orderBy = pure (p.orderBy.map fun key => (key.substitute n).render.text) :=
    fun n hn => renameAll_eq fun key hkey => SortKey.rename_render hn (hkeys key hkey)
  rw [sortKeys_soql hbackend, orderClause, orderClause, hspelled n hn, hspelled m hm]
  refine .pure (.listing hf hg (by decide) ?_ _)
  rw [List.map_map, List.map_map]
  refine List.map_congr_left fun key hkey => SortKey.substitute_alike hf hg ?_
  exact Expr.substitute_alike hf hg (hkeys key hkey) (hcolumns _ (Plan.mem_expressions_of_sortKey hkey))

theorem filter_alike {filter : Option Filter} (hfilter : filter = p.filter ∨ filter = p.having) :
    Report.Matches (Option.Rel (Sql.Alike f g)) (compileFilter n filter) (compileFilter m filter) := by
  refine compileFilter_alike hf hg hn hm (fun g hg => ?_) fun e he => hcolumns e ?_
  · exact hplain.filters (Plan.filter_or_having hfilter hg)
  · simp only [Plan.expressions, List.mem_append]
    rcases hfilter with rfl | rfl <;> tauto

end Named

/-- The query of a tooling object and that of the ordinary plan go through the same stages. -/
theorem assemble_alike (hbackend : ctx.backend = .soql features autocommit)
    (hresolve : Tree.resolve p.joins = .ok tree) (hplain : p.Plain)
    (hcolumns : ∀ e ∈ p.expressions, ∀ source, e.source? = some source →
      (p.naming ctx.settings tree).AlikeOn f g (p.asMinimal.naming ctx.settings tree) source)
    (hlabels : ∀ item ∈ p.projections, ∀ label, item.label = some label → f label = g label)
    {table : String} (htable : p.table tree = .ok table) (hdot : '.' ∉ table.toList)
    (herase : ∀ texts, unqualify p texts = texts.map f)
    (hkeep : ∀ texts, unqualify p.asMinimal texts = texts) (form : SelectForm) :
    Report.Matches (fun q other => q = other.withText g) (assemble ctx p p.columns tree form)
      (assemble ctx p.asMinimal p.columns tree form) := by
  have hm : Tree.resolve p.joins = .ok (p.asMinimal.naming ctx.settings tree).tree := hresolve
  have hempty : Sql.empty = Sql.empty.withText g := (Sql.withText_empty hg).symm
  have htables : Report.Matches (fun a b => table = a ∧ table = b)
      (.ofExcept (p.table tree) : Report StatementError String) (.ofExcept (p.asMinimal.table tree)) := by
    rw [Plan.asMinimal_table, htable]
    exact .pure ⟨rfl, rfl⟩
  rw [assemble, assemble]
  refine htables.bind ?_
  rintro _ _ ⟨rfl, rfl⟩
  refine (filter_alike hf hg hresolve hm hplain hcolumns (.inl rfl)).bind fun filter other hfilter => ?_
  cases hfilter with
  | none => exact .pure hempty
  | some hfilter =>
    refine (filter_alike hf hg hresolve hm hplain hcolumns (.inr rfl)).bind fun having other hhaving => ?_
    cases hhaving with
    | none => exact .pure hempty
    | some hhaving =>
      refine (distinctClause_alike hf hg hbackend).bind fun distinct distinct' hdistinct => ?_
      refine (selectClause_alike hf hg hresolve hm hplain hcolumns hbackend hlabels _).bind
        fun select select' hselect => ?_
      refine (groupClause_alike hf hg hresolve hm hplain hcolumns).bind fun group group' hgroup => ?_
      refine (explainClause_alike hf hg hbackend).bind fun explain explain' hexplain => ?_
      refine (orderClause_alike hf hg hresolve hm hplain hcolumns hbackend).bind fun order order' horder => ?_
      refine (lockClause_alike hf hg hbackend).bind fun lock lock' hlock => ?_
      have hword : ∀ {text : String}, '.' ∉ text.toList →
          (Clause.word text).Alike f g (Clause.word text) :=
        fun hdot => .plain hf hg (List.forall_mem_singleton.2 hdot)
      have hfrom : Clause.Alike f g ⟨["FROM", table], []⟩ ⟨["FROM", table], []⟩ :=
        .plain hf hg (List.forall_mem_cons.2 ⟨by decide, List.forall_mem_singleton.2 hdot⟩)
      have hlimits : Clause.Alike f g (if form.limits then limitClause ctx.backend.noLimit p.window else {})
          (if form.limits then limitClause ctx.backend.noLimit p.window else {}) := by
        split
        · exact limitClause_alike hf hg _ _
        · exact ⟨rfl, rfl⟩
      have hall := ((((((((((hexplain.append (hword (show '.' ∉ "SELECT".toList by decide))).append
        hdistinct).append hselect).append hfrom).append
        (.condition hf hg (show '.' ∉ "WHERE".toList by decide) hfilter)).append hgroup).append
        (.condition hf hg (show '.' ∉ "HAVING".toList by decide) hhaving)).append horder).append
        hlimits).append hlock)
      refine .pure ?_
      rw [herase, hkeep, hall.texts, hall.params, Sql.withText,
        hg.joined (by decide) (by decide) (by decide) (by decide)]
      rfl

end Select

/-! ### References -/

theorem Expr.Plain.source_mem {known : List String} {e : Expr} (he : e.Plain known) {source : String}
    (hsource : e.source? = some source) : source ∈ known := by
  induction e with
  | column name field =>
    cases hsource
    exact he.2.2
  | call function argument ih => exact ih he.2 hsource
  | countAll => cases hsource
  | raw sql => exact he.elim

/-- No relationship on the way to the alias has a name that ends with the word. -/
def Tree.Spares (t : Tree) (word source : String) : Prop :=
  ∃ steps, (∀ step ∈ steps, IsWord step ∧ Text.beforeEnd? word step = none) ∧
    t.path? source = some (joinWith "." steps)

namespace Plan

variable {p : Plan} {tree : Tree} {settings : Settings} {table source : String}

theorem standsFor_asMinimal {path : String} (hpath : tree.path? source = some path) :
    (p.asMinimal.naming settings tree).standsFor source = path := by
  have hminimal : (p.asMinimal.naming settings tree).isMinimal source = true := rfl
  rw [Naming.standsFor, hminimal, if_pos rfl]
  exact congrArg (Option.getD · "") hpath

section Erased

variable (hresolve : Tree.resolve p.joins = .ok tree) (hworded : ∀ j ∈ p.joins, j.Worded)
  (htable : p.table tree = .ok table) (hsource : source ∈ p.joins.map Join.name)

include hresolve hworded htable hsource

/-- A reference loses the root's table, and whatever else is erased from the shorter name too. -/
theorem alikeOn_erased :
    (p.naming settings tree).AlikeOn (eraseAll (table ++ ".")) (eraseAll (table ++ "."))
      (p.asMinimal.naming settings tree) source := by
  intro field hfield
  obtain ⟨root, steps, hroot, hword, hsteps, hpath, hstands⟩ :=
    Naming.exists_steps (n := p.naming settings tree) hresolve (fun j hj => (hworded j hj).keyed) hsource
  obtain rfl : root = table := by
    have hroot : tree.rootTable? = some root := hroot
    rw [Plan.table, hroot] at htable
    exact Except.ok.inj htable
  have hpath : tree.path? source = some (joinWith "." steps) := hpath
  rw [hstands, standsFor_asMinimal hpath]
  split
  · rfl
  · have hwords : ∀ step ∈ root :: steps, IsWord step := List.forall_mem_cons.2 ⟨hword, hsteps⟩
    have hfield : [field] ≠ [] := List.cons_ne_nil field []
    show eraseAll _ (Naming.qualified _ (joinWith "." [field])) =
      eraseAll _ (Naming.qualified _ (joinWith "." [field]))
    rw [Naming.qualified_joinWith hwords hfield, Naming.qualified_joinWith hsteps hfield, List.cons_append,
      Text.joinWith_cons "." root (List.append_ne_nil_of_right_ne_nil steps hfield), Text.eraseAll_qualifier]

theorem alikeOn_kept (hword : IsWord table) (hspares : tree.Spares table source) :
    (p.naming settings tree).AlikeOn (eraseAll (table ++ ".")) id
      (p.asMinimal.naming settings tree) source := by
  intro field hfield
  obtain ⟨steps, hsteps, hpath⟩ := hspares
  have hwords : ∀ step ∈ steps, IsWord step := fun step hstep => (hsteps step hstep).1
  rw [alikeOn_erased hresolve hworded htable hsource field hfield, standsFor_asMinimal hpath]
  show eraseAll _ (Naming.qualified _ (joinWith "." [field])) = Naming.qualified _ (joinWith "." [field])
  rw [Naming.qualified_joinWith hwords (List.cons_ne_nil field [])]
  exact Text.eraseAll_steps hword hsteps hfield

end Erased

end Plan

/-! ### Whole queries -/

def Compiler.asMinimal (c : Compiler) : Compiler :=
  { c with plan := c.plan.asMinimal }

/-- A plan on a tooling object that is the root of its joins, with words for all names. -/
structure Plan.OnTooling (p : Plan) (m : Model) : Prop where
  model : p.model = some m
  tooling : m.tooling
  table_word : IsWord m.table
  table : ∀ tree, Tree.resolve p.joins = .ok tree → p.table tree = .ok m.table
  worded : ∀ j ∈ p.joins, j.Worded
  plain : p.Plain

namespace Plan.OnTooling

variable {c : Compiler} {m : Model} (h : c.plan.OnTooling m) {features : Features} {autocommit : Bool}
  (hbackend : c.context.backend = .soql features autocommit) (hmemo : c.memo.Faithful c.plan.joins)

include h hbackend hmemo

theorem compile_alike {g : String → String} (hg : Piecewise g)
    (hcolumns : ∀ tree, Tree.resolve c.plan.joins = .ok tree → ∀ e ∈ c.plan.expressions, ∀ source,
      e.source? = some source → (c.plan.naming c.context.settings tree).AlikeOn (eraseAll (m.table ++ ".")) g
        (c.plan.asMinimal.naming c.context.settings tree) source)
    (hlabels : ∀ item ∈ c.plan.projections, ∀ label, item.label = some label →
      eraseAll (m.table ++ ".") label = g label) (form : SelectForm) :
    Report.Matches (fun q other => q = other.withText g) (c.compile form).1 (c.asMinimal.compile form).1 := by
  have hf := Text.piecewise_eraseAll h.table_word
  rw [Compiler.compile_eq hmemo form, Compiler.compile_eq (c := c.asMinimal) hmemo form]
  by_cases hwindow : form.limits && c.plan.window.isEmpty
  · have hother : form.limits && c.asMinimal.plan.window.isEmpty := hwindow
    rw [if_pos hwindow, if_pos hother]
    exact .pure (Sql.withText_empty hg).symm
  · have hother : ¬ (form.limits && c.asMinimal.plan.window.isEmpty) := hwindow
    rw [if_neg hwindow, if_neg hother]
    cases hresolve : Tree.resolve c.plan.joins with
    | error e =>
      have hfail : Tree.resolve c.asMinimal.plan.joins = .error e := hresolve
      rw [hfail]
      exact .fail _
    | ok tree =>
      have hfound : Tree.resolve c.asMinimal.plan.joins = .ok tree := hresolve
      have htable := h.table tree hresolve
      rw [hfound]
      refine Select.assemble_alike hf hg hbackend hresolve h.plain (hcolumns tree hresolve) hlabels htable
        h.table_word.dotless (fun texts => ?_) (fun texts => ?_) form
      · rw [Select.unqualify, h.model, Option.filter_some_pos h.tooling]
      · refine Select.unqualify_eq ?_ texts
        intro other hmodel
        rw [Plan.asMinimal, h.model] at hmodel
        cases hmodel
        rfl

end Plan.OnTooling

/-- **Tooling objects.** The query of a tooling object is that of the ordinary plan without the root's table,
from which every occurrence of the table with a dot behind it is erased. The two are the same if no relationship
on the way to a column ends with the name of the table. -/
theorem Compiler.compile_tooling {c : Compiler} {m : Model} (h : c.plan.OnTooling m) {features : Features}
    {autocommit : Bool} (hbackend : c.context.backend = .soql features autocommit)
    (hmemo : c.memo.Faithful c.plan.joins) (form : SelectForm) :
    (c.compile form).1 = Sql.withText (eraseAll (m.table ++ ".")) <$> (c.asMinimal.compile form).1 ∧
    ((∀ tree, Tree.resolve c.plan.joins = .ok tree → ∀ e ∈ c.plan.expressions, ∀ source,
        e.source? = some source → tree.Spares m.table source) →
      (∀ item ∈ c.plan.projections, ∀ label, item.label = some label → IsWord label) →
      (c.compile form).1 = (c.asMinimal.compile form).1) := by
  have hf := Text.piecewise_eraseAll h.table_word
  have hsource : ∀ e ∈ c.plan.expressions, ∀ source, e.source? = some source →
      source ∈ c.plan.joins.map Join.name :=
    fun e he source => (h.plain.expressions e he).source_mem
  refine ⟨?_, fun hspares hlabels => ?_⟩
  · refine (h.compile_alike hbackend hmemo hf ?_ (fun _ _ _ _ => rfl) form).eq_map
    intro tree hresolve e he source hsome
    exact Plan.alikeOn_erased hresolve h.worded (h.table tree hresolve) (hsource e he source hsome)
  · refine (h.compile_alike hbackend hmemo Text.piecewise_id ?_ ?_ form).eq
    · intro tree hresolve e he source hsome
      exact Plan.alikeOn_kept hresolve h.worded (h.table tree hresolve) (hsource e he source hsome)
        h.table_word (hspares tree hresolve e he source hsome)
    · intro item hitem label hlabel
      exact hf.plain label (hlabels item hitem label hlabel).dotless

/-- The slowest failed test of each class. -/
def Compiler.ofTestResults : Compiler where
  context := .of .soql {}
  plan :=
    { model := some { table := "ApexTestResult", tooling := true }
      joins := [.base "ApexTestResult" "R", .single "R" "ApexClass" "ApexClassId" "Id" "K"]
      select := [⟨.column "K" "Name", none⟩, ⟨.call "MAX" (.column "R" "RunTime"), some "slowest"⟩]
      filter := some (.all [.lookup ⟨.column "R" "Outcome", .exact, .single (.text "Fail")⟩])
      groupBy := [.column "K" "Name"] }

theorem Compiler.ofTestResults_unqualified :
    ofTestResults.plan.OnTooling { table := "ApexTestResult", tooling := true } ∧
      (ofTestResults.compile {}).1 = (ofTestResults.asMinimal.compile {}).1 ∧
      ∃ q, (ofTestResults.compile {}).1.result = .ok q ∧
        q.text = "SELECT ApexClass.Name, MAX(RunTime) slowest FROM ApexTestResult WHERE Outcome = %s " ++
          "GROUP BY ApexClass.Name" := by
  have hplain : ofTestResults.plan.Plain := by
    refine ⟨by decide, ?_⟩
    rintro g (hg | hg) <;> cases hg
    decide
  have hfound : ∀ tree, Tree.resolve ofTestResults.plan.joins = .ok tree →
      (tree.path? "R" = some "" ∧ tree.path? "K" = some "ApexClass") ∧
        tree.rootTable? = some "ApexTestResult" := by
    intro tree htree
    have hpaths : (Tree.resolve ofTestResults.plan.joins).toOption.map
        (fun t => ((t.path? "R", t.path? "K"), t.rootTable?)) =
        some ((some "", some "ApexClass"), some "ApexTestResult") := by decide +kernel
    rw [htree] at hpaths
    simpa [Except.toOption] using hpaths
  have htooling : ofTestResults.plan.OnTooling { table := "ApexTestResult", tooling := true } := by
    refine ⟨rfl, rfl, by decide, fun tree htree => ?_, by decide, hplain⟩
    rw [Plan.table, (hfound tree htree).2]
  have hmemo : ofTestResults.memo.Faithful ofTestResults.plan.joins := by
    intro t ht
    cases ht
  refine ⟨htooling, (compile_tooling htooling rfl hmemo {}).2 ?_ ?_,
    exists_eq_ok_of_map (by decide +kernel)⟩
  · intro tree htree e he source hsource
    obtain ⟨⟨hroot, hclass⟩, -⟩ := hfound tree htree
    have hknown : source = "R" ∨ source = "K" := by
      simpa [ofTestResults, Join.base, Join.single] using (hplain.expressions e he).source_mem hsource
    rcases hknown with rfl | rfl
    · exact ⟨[], List.forall_mem_nil _, hroot⟩
    · exact ⟨["ApexClass"], List.forall_mem_singleton.2 (by decide), hclass⟩
  · decide

/-- Users who refer to other users by a relationship that has the name of their table. -/
def Compiler.ofUsers : Compiler where
  context := .of .soql {}
  plan :=
    { model := some { table := "User", tooling := true }
      joins := [.base "User" "U", .single "U" "User" "UserId" "Id" "M"]
      select := [⟨.column "M" "Name", none⟩] }

theorem Compiler.ofUsers_lose_relationship :
    ofUsers.plan.OnTooling { table := "User", tooling := true } ∧
      (∃ q, (ofUsers.compile {}).1.result = .ok q ∧ q.text = "SELECT Name FROM User") ∧
      ∃ q, (ofUsers.asMinimal.compile {}).1.result = .ok q ∧ q.text = "SELECT User.Name FROM User" := by
  have hplain : ofUsers.plan.Plain := by
    refine ⟨by decide, ?_⟩
    rintro g (hg | hg) <;> cases hg
  refine ⟨⟨rfl, rfl, by decide, fun tree htree => ?_, by decide, hplain⟩,
    exists_eq_ok_of_map (by decide +kernel), exists_eq_ok_of_map (by decide +kernel)⟩
  have hroot : (Tree.resolve ofUsers.plan.joins).toOption.map Tree.rootTable? = some (some "User") := by
    decide +kernel
  rw [htree] at hroot
  rw [Plan.table, Option.some_inj.1 hroot]

end PathQuery
