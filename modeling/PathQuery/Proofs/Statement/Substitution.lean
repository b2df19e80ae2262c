import PathQuery.Proofs.Condition.Meaning
import PathQuery.Proofs.Statement.Assembly
import PathQuery.Proofs.Substitution
/-!
# Queries by substitution

The text of a query in which every fragment is rendered, read again and renamed is the text that comes
from the plan's own expressions, each with its columns replaced by their qualified names. Nothing in such
a query is misread, so there are no warnings.
-/

namespace PathQuery

/-! ### Filters -/

/-- Renaming gives no warning about the text of a condition. -/
def FilterRules.Understands (rules : FilterRules) (c : Condition) : Prop :=
  ∀ sql, (c.compile rules).result = .ok (.sql sql false) → (rules.rename sql.text).warnings = []

theorem Progress.absorb_quiet {rules : FilterRules} {p : Progress} {outcome : Outcome}
    (h : ∀ sql, outcome = .sql sql false → (rules.rename sql.text).warnings = []) :
    (p.absorb rules outcome).warnings = [] := by
  cases outcome with
  | everything | nothing => rfl
  | sql sql resolved =>
    rw [absorb]
    split
    · rfl
    · cases resolved with
      | true => rfl
      | false => exact Report.bind_quiet (h sql rfl) fun _ _ => rfl

mutual

theorem Condition.compile_quiet {rules : FilterRules} (hrules : rules.Proper) (here : Place) (c : Condition)
    (h : ∀ leaf ∈ (c.formula here).leaves, rules.Understands leaf.2) :
    (c.compile rules).warnings = [] ∧ rules.Understands c := by
  cases c with
  | group g =>
    refine ⟨Filter.compile_quiet hrules here g h, fun sql hsql => ?_⟩
    -- The text of a group is named already.
    exact Bool.noConfusion (Filter.compile_settles hrules here g hsql).1
  | lookup | raw | everything | nothing => exact ⟨rfl, h _ List.mem_cons_self⟩

theorem Filter.compile_quiet {rules : FilterRules} (hrules : rules.Proper) (here : Place) (g : Filter)
    (h : ∀ leaf ∈ (g.formula here).leaves, rules.Understands leaf.2) :
    (g.compile rules).warnings = [] := by
  obtain ⟨connective, children, negated, grouped⟩ := g
  rw [Filter.formula, Formula.leaves_group] at h
  exact compileChildren_quiet hrules here 0 children h _

theorem compileChildren_quiet {rules : FilterRules} (hrules : rules.Proper) (here : Place) (next : Nat)
    (children : List Condition)
    (h : ∀ leaf ∈ (formulasOfAll here next children).flatMap Formula.leaves, rules.Understands leaf.2)
    {connective : Connective} {negated grouped : Bool} (p : Progress) :
    (compileChildren rules connective negated grouped p children).warnings = [] := by
  cases children with
  | nil => rfl
  | cons c rest =>
    rw [formulasOfAll, List.flatMap_cons, List.forall_mem_append] at h
    obtain ⟨hquiet, hunderstands⟩ := c.compile_quiet hrules (next :: here) h.1
    rw [compileChildren]
    refine Report.bind_quiet hquiet fun outcome houtcome => ?_
    refine Report.bind_quiet (Progress.absorb_quiet fun sql hsql => ?_) fun q hq => ?_
    · exact hunderstands sql (hsql ▸ houtcome)
    · split
      · rfl
      · exact compileChildren_quiet hrules here (next + 1) rest h.2 q

end

def Condition.isRaw : Condition → Bool
  | .raw _ => true
  | _ => false

/-- Filters without raw text whose lookups are about plain expressions. -/
structure Filter.Plain (known : List String) (g : Filter) : Prop where
  columns : ∀ e ∈ g.columns, e.Plain known
  no_raw : ∀ leaf ∈ (g.formula []).leaves, leaf.2.isRaw = false

/-- The text of a filter spells a formula that is as true as the filter, over lookups of the filter in
which the columns are replaced. -/
def FilterSpelled (n : Naming) : Option Filter → Sql → Prop
  | none, sql => sql = .empty
  | some g, sql =>
    (sql = .empty ∧ FilterRules.Settles { rename := n.rename } (g.formula []) .everything) ∨
      ∃ f, FilterRules.Renders { rename := n.rename } (g.formula []) sql f ∧
        ∀ piece ∈ f.leaves, ∃ l, (piece.1, .lookup l) ∈ (g.formula []).leaves ∧
          (l.substitute n).predicate = .ok (.sql piece.2 false)

section Filters

variable {n : Naming} {joins : List Join} (hresolve : Tree.resolve joins = .ok n.tree) {g : Filter}
  (hplain : g.Plain (joins.map Join.name))

include hresolve hplain

/-- A leaf that compiles to text is a lookup, and renaming replaces its column. -/
theorem Filter.Plain.leaf {leaf : Place × Condition} (hleaf : leaf ∈ (g.formula []).leaves) {sql : Sql}
    {resolved : Bool}
    (h : (leaf.2.compile { rename := n.rename }).result = .ok (.sql sql resolved)) :
    ∃ l text, leaf.2 = .lookup l ∧ resolved = false ∧ n.rename sql.text = pure text ∧
      (l.substitute n).predicate = .ok (.sql ⟨text, sql.params⟩ false) := by
  have hkind := g.isLeaf_of_mem_leaves [] leaf hleaf
  obtain ⟨place, c⟩ := leaf
  cases c with
  | group => exact hkind.elim
  | everything | nothing => cases h
  | raw sql => exact Bool.noConfusion (hplain.no_raw _ hleaf)
  | lookup l =>
    obtain ⟨text, hresolved, hrename, hpredicate⟩ :=
      Lookup.rename_predicate hresolve (hplain.columns _ hkind) h
    exact ⟨l, text, rfl, hresolved, hrename, hpredicate⟩

theorem Filter.Plain.quiet : (g.compile { rename := n.rename }).warnings = [] := by
  refine Filter.compile_quiet (n.rename_proper _) [] g fun leaf hleaf sql hsql => ?_
  obtain ⟨l, text, -, -, hrename, -⟩ := hplain.leaf hresolve hleaf hsql
  show (n.rename sql.text).warnings = []
  rw [hrename, Report.pure_warnings]

theorem Filter.Plain.spelled {sql : Sql} (h : (compileFilter n (some g)).result = .ok (some sql)) :
    FilterSpelled n (some g) sql := by
  have hproper := n.rename_proper Lookup.predicate
  rcases compileFilter_some h with ⟨hempty, hcompile⟩ | ⟨resolved, hcompile⟩
  · exact .inl ⟨hempty, g.compile_settles hproper [] hcompile⟩
  · obtain ⟨-, f, hf⟩ := g.compile_settles hproper [] hcompile
    refine .inr ⟨f, hf, fun piece hpiece => ?_⟩
    obtain ⟨leaf, hleaf, hkeeps⟩ := FilterRules.exists_leaf hf.leaves hpiece
    obtain ⟨text, resolved, -, hname, hcompiled⟩ := hkeeps.compiled
    obtain ⟨l, name, hlookup, rfl, hrename, hpredicate⟩ := hplain.leaf hresolve hleaf hcompiled
    have hsame : piece.2.text = name := by
      have hresult : (n.rename text).result = .ok piece.2.text := hname
      rw [hrename] at hresult
      cases hresult
      rfl
    refine ⟨l, ?_, ?_⟩
    · rw [hkeeps.place, ← hlookup]
      exact hleaf
    · rw [hpredicate, ← hsame]

end Filters

/-! ### Lists of items -/

/-- What renames each of several items renames them all, without a warning. -/
theorem Select.Renamed.eq_map {α : Type} {n : Naming} {items : List α} {text name : α → String}
    (hitems : ∀ a ∈ items, n.rename (text a) = pure (name a)) {names : List String}
    (h : Renamed n (items.map text) names) :
    names = items.map name ∧ warningsOf n (items.map text) = [] := by
  induction items generalizing names with
  | nil =>
    cases h
    exact ⟨rfl, rfl⟩
  | cons a rest ih =>
    cases h with
    | cons hfirst hrest =>
      have ha := hitems a List.mem_cons_self
      obtain ⟨hnames, hwarnings⟩ := ih (fun b hb => hitems b (List.mem_cons_of_mem _ hb)) hrest
      rw [ha] at hfirst
      cases hfirst
      refine ⟨by rw [hnames, List.map_cons], ?_⟩
      rw [warningsOf, List.map_cons, List.flatMap_cons, ha, Report.pure_warnings, List.nil_append]
      exact hwarnings

def Expr.isColumn : Expr → Bool
  | .column _ _ => true
  | _ => false

/-- The items of a selection. Labels go to function results only; items without labels are numbered from
`index` if names are asked for. -/
def Projection.spellAll (n : Naming) (names : Bool) : Nat → List Projection → List String
  | _, [] => []
  | index, item :: rest =>
    let text := (item.expr.substitute n).render.text
    match item.label with
    | some label =>
      (if item.expr.isColumn then text else text ++ " " ++ label) :: spellAll n names index rest
    | none =>
      if names then (text ++ " AS Col" ++ toString index) :: spellAll n names (index + 1) rest
      else text :: spellAll n names index rest

/-- The items that end in a parenthesis are the function results. -/
theorem Expr.endsWithChar_substitute {known : List String} (n : Naming) {e : Expr} (he : e.Plain known) :
    Text.endsWithChar ')' (e.substitute n).render.text = !e.isColumn := by
  cases e with
  | column source field =>
    have hfield := he.2.1.endsWithChar (c := ')') rfl
    show Text.endsWithChar ')' (Naming.qualified _ field) = false
    rw [Naming.qualified]
    split
    · exact hfield
    · rw [Text.endsWithChar_append ')' _ he.2.1.1]
      exact hfield
  | call function argument => exact Text.endsWithChar_append ')' _ (t := ")") (by decide)
  | countAll =>
    show Text.endsWithChar ')' countAllText = true
    decide
  | raw sql => exact he.elim

theorem Select.decorate_substitute {known : List String} {features : Features} {autocommit : Bool}
    (n : Naming) (names : Bool) (index : Nat) {items : List Projection}
    (hitems : ∀ item ∈ items, item.expr.Plain known) :
    decorate (.soql features autocommit) names index (items.map Projection.label)
        (items.map fun item => (item.expr.substitute n).render.text) =
      Projection.spellAll n names index items := by
  induction items generalizing index with
  | nil => rfl
  | cons item rest ih =>
    have hends := Expr.endsWithChar_substitute n (hitems item List.mem_cons_self)
    have hrest := fun index => ih index fun other hother => hitems other (List.mem_cons_of_mem _ hother)
    rw [List.map_cons, List.map_cons, decorate, Projection.spellAll]
    cases hlabel : item.label with
    | some label =>
      simp only [column, hends, hrest]
      cases item.expr.isColumn <;> rfl
    | none =>
      simp only [column]
      cases names <;> simp [hrest]

/-! ### Whole queries -/

/-- Plans without raw text, whose names are words and whose aliases are all joined. -/
structure Plan.Plain (p : Plan) : Prop where
  expressions : ∀ e ∈ p.expressions, e.Plain (p.joins.map Join.name)
  no_raw : ∀ g, p.filter = some g ∨ p.having = some g →
    ∀ leaf ∈ (g.formula []).leaves, leaf.2.isRaw = false

namespace Plan.Plain

variable {p : Plan} (hplain : p.Plain)

include hplain

theorem filters {g : Filter} (hg : p.filter = some g ∨ p.having = some g) :
    g.Plain (p.joins.map Join.name) :=
  ⟨fun e he => hplain.expressions e (mem_expressions_of_filter hg he), hplain.no_raw g hg⟩

theorem filter_spelled {settings : Settings} {tree : Tree}
    (hresolve : Tree.resolve p.joins = .ok tree) {filter : Option Filter}
    (hfilter : filter = p.filter ∨ filter = p.having) {sql : Sql}
    (h : (compileFilter (p.naming settings tree) filter).result = .ok (some sql)) :
    FilterSpelled (p.naming settings tree) filter sql ∧
      (compileFilter (p.naming settings tree) filter).warnings = [] := by
  have hg : ∀ g, filter = some g → g.Plain (p.joins.map Join.name) :=
    fun g hsome => hplain.filters (filter_or_having hfilter hsome)
  refine ⟨?_, compileFilter_quiet fun g hsome => (hg g hsome).quiet hresolve⟩
  cases filter with
  | none => exact compileFilter_none h
  | some g => exact (hg g rfl).spelled hresolve h

end Plan.Plain

/-- The texts of a query whose columns are replaced in the plan's own expressions. -/
def Plan.spelled (p : Plan) (features : Features) (n : Naming) (form : SelectForm) (table : String)
    (filter having : Sql) : List String :=
  let listing (keyword : String) (items : List String) : List String :=
    if items.isEmpty then [] else [keyword ++ " " ++ Text.joinWith ", " items]
  let condition (keyword : String) (sql : Sql) : List String :=
    if sql.isEmpty then [] else [keyword ++ " " ++ sql.text]
  (if p.explain.isSome then ["EXPLAIN"] else []) ++ ["SELECT"] ++
    (if p.distinct then ["DISTINCT"] else []) ++
    [Text.joinWith ", " (Projection.spellAll n form.columnNames 1 p.projections), "FROM", table] ++
    condition "WHERE" filter ++
    listing "GROUP BY" (p.groupBy.map fun e => (e.substitute n).render.text) ++
    condition "HAVING" having ++
    listing "ORDER BY" (p.orderBy.map fun key => (key.substitute n).render.text) ++
    (if form.limits then (Select.limitClause none p.window).texts else []) ++
    (if p.forUpdate && features.selectForUpdate then
      [if p.nowait then "FOR UPDATE NOWAIT" else "FOR UPDATE"] else [])

namespace Select.Parts.Of

variable {ctx : Context} {plan : Plan} {tree : Tree} {form : SelectForm} {parts : Select.Parts}
  {features : Features} {autocommit : Bool} (hparts : parts.Of ctx plan plan.columns tree form)
  (hbackend : ctx.backend = .soql features autocommit) (hresolve : Tree.resolve plan.joins = .ok tree)
  (hplain : plan.Plain)

include hparts hresolve hplain

theorem groups_spelled :
    parts.groups = plan.groupBy.map
        (fun e => (e.substitute (plan.naming ctx.settings tree)).render.text) ∧
      warningsOf (plan.naming ctx.settings tree) (plan.columns.groupBy.map Sql.text) = [] := by
  have hmap : plan.columns.groupBy.map Sql.text = plan.groupBy.map fun e => e.render.text :=
    List.map_map
  have hrenamed := (renameAll_ok hparts.groups).1
  rw [hmap] at hrenamed ⊢
  refine hrenamed.eq_map fun e he => Expr.rename_render_alone hresolve ?_
  exact hplain.expressions e (Plan.mem_expressions_of_group he)

include hbackend

theorem sorts_spelled :
    parts.sorts = plan.orderBy.map
        (fun key => (key.substitute (plan.naming ctx.settings tree)).render.text) ∧
      warningsOf (plan.naming ctx.settings tree)
        ((sortKeys ctx plan.columns).map Sql.text) = [] := by
  have hmap : (sortKeys ctx plan.columns).map Sql.text = plan.orderBy.map fun key => key.render.text := by
    rw [sortKeys_soql hbackend]
    exact List.map_map
  have hrenamed := (renameAll_ok hparts.sorts).1
  rw [hmap] at hrenamed ⊢
  refine hrenamed.eq_map fun key hkey => SortKey.rename_render hresolve ?_
  exact hplain.expressions _ (Plan.mem_expressions_of_sortKey hkey)

theorem columns_spelled :
    parts.columns = Projection.spellAll (plan.naming ctx.settings tree) form.columnNames 1
        plan.projections ∧
      warningsOf (plan.naming ctx.settings tree)
        (plan.columns.select.map fun c => c.sql.text) = [] := by
  have hmap : (plan.columns.select.map fun c => c.sql.text) =
      plan.projections.map fun item => item.expr.render.text :=
    List.map_map
  have hlabels : plan.columns.select.map SelectedColumn.label = plan.projections.map Projection.label :=
    List.map_map
  have hitems : ∀ item ∈ plan.projections, item.expr.Plain (plan.joins.map Join.name) :=
    fun item hitem => hplain.expressions _ (Plan.mem_expressions_of_projection hitem)
  obtain ⟨renamed, hrenamed, hcolumns⟩ := (columns_ok hparts.columns).1
  rw [hmap] at hrenamed ⊢
  obtain ⟨hnames, hquiet⟩ := hrenamed.eq_map fun item hitem =>
    Expr.rename_render_alone hresolve (hitems item hitem)
  refine ⟨?_, hquiet⟩
  rw [hcolumns, hnames, hbackend, hlabels]
  exact decorate_substitute _ _ 1 hitems

/-- The texts of the query. -/
theorem clause_spelled :
    (parts.clause ctx plan plan.columns form).texts = plan.spelled features (plan.naming ctx.settings tree)
      form parts.table parts.filter parts.having := by
  have hgroups := (hparts.groups_spelled hresolve hplain).1
  have hsorts := (hparts.sorts_spelled hbackend hresolve hplain).1
  have hcolumns := (hparts.columns_spelled hbackend hresolve hplain).1
  have hnoLimit : ctx.backend.noLimit = none := by
    rw [hbackend]
    rfl
  have hdistinct := congrArg Clause.texts (distinctClause_soql hbackend hparts.distinct)
  have hexplain := congrArg Clause.texts (explainClause_soql hbackend hparts.explain)
  have hlock := congrArg Clause.texts (lockClause_soql hbackend hparts.lock)
  simp only [apply_ite Clause.texts, Clause.word_texts] at hdistinct hexplain hlock
  simp only [Select.Parts.clause, Clause.append_texts, Clause.word_texts, Clause.listing_texts,
    Clause.condition_texts, apply_ite Clause.texts, hdistinct, hexplain, hlock, hgroups, hsorts, hcolumns,
    hnoLimit, Plan.spelled, List.append_assoc, List.cons_append, List.nil_append]

end Select.Parts.Of

/-- The text of a query comes from the plan's own expressions with their columns replaced, and there are no
warnings. -/
theorem Compiler.compile_eq_substitution (c : Compiler) {features : Features} {autocommit : Bool}
    (hbackend : c.context.backend = .soql features autocommit) (hmemo : c.memo.Faithful c.plan.joins)
    (hplain : c.plan.Plain) (hmodel : ∀ m, c.plan.model = some m → m.tooling = false)
    (form : SelectForm) {q : Sql} (h : (c.compile form).1.result = .ok q) (hq : q.text ≠ "") :
    (c.compile form).1.warnings = [] ∧ ∃ tree table filter having,
      Tree.resolve c.plan.joins = .ok tree ∧ c.plan.table tree = .ok table ∧
      FilterSpelled (c.plan.naming c.context.settings tree) c.plan.filter filter ∧
      FilterSpelled (c.plan.naming c.context.settings tree) c.plan.having having ∧
      q.text = Text.joinWith " "
        (c.plan.spelled features (c.plan.naming c.context.settings tree) form table filter having) := by
  rcases Compiler.compile_ok hmemo h with hempty | ⟨tree, hresolve, hcompile⟩
  · exact absurd (congrArg Sql.text hempty) hq
  rw [hcompile] at h ⊢
  rcases Select.assemble_ok h with hempty | ⟨parts, hparts, hquery, hwarnings⟩
  · exact absurd (congrArg Sql.text hempty) hq
  obtain ⟨hfilter, hfilterQuiet⟩ := hplain.filter_spelled hresolve (.inl rfl) hparts.filter
  obtain ⟨hhaving, hhavingQuiet⟩ := hplain.filter_spelled hresolve (.inr rfl) hparts.having
  have htexts := hparts.clause_spelled hbackend hresolve hplain
  refine ⟨?_, tree, parts.table, parts.filter, parts.having, hresolve, hparts.table, hfilter, hhaving, ?_⟩
  · rw [hwarnings, Select.stageWarnings, hfilterQuiet, hhavingQuiet,
      (hparts.columns_spelled hbackend hresolve hplain).2, (hparts.groups_spelled hresolve hplain).2,
      (hparts.sorts_spelled hbackend hresolve hplain).2]
    rfl
  · rw [hquery, Select.unqualify_eq hmodel, htexts]

/-- The accounts of contacts whose names start with an `x`, most contacts first. -/
def Compiler.ofContacts : Compiler where
  context := .of .soql {}
  plan :=
    { joins := [⟨none, "Contact", [], "C"⟩, ⟨some "C", "Account", [("AccountId", "Id")], "A"⟩]
      select := [⟨.column "A" "Name", none⟩, ⟨.countAll, some "n"⟩]
      filter := some { children :=
        [.lookup ⟨.call "LOWER" (.column "A" "Name"), .startsWith, .single (.text "x")⟩, .everything] }
      groupBy := [.column "A" "Name"]
      orderBy := [{ expr := .countAll, descending := true, nulls := some .last }] }

theorem Compiler.ofContacts_substitution :
    ∃ q, (Compiler.ofContacts.compile {}).1.result = .ok q ∧
      q.text = "SELECT Contact.Account.Name, COUNT(Id) n FROM Contact WHERE LOWER(Contact.Account.Name) " ++
        "LIKE %s GROUP BY Contact.Account.Name ORDER BY COUNT(Id) DESC NULLS LAST" ∧
      (Compiler.ofContacts.compile {}).1.warnings = [] ∧ ∃ tree table filter having,
        Tree.resolve ofContacts.plan.joins = .ok tree ∧ ofContacts.plan.table tree = .ok table ∧
        FilterSpelled (ofContacts.plan.naming {} tree) ofContacts.plan.filter filter ∧
        FilterSpelled (ofContacts.plan.naming {} tree) ofContacts.plan.having having ∧
        q.text = Text.joinWith " "
          (ofContacts.plan.spelled {} (ofContacts.plan.naming {} tree) {} table filter having) := by
  have hplain : Compiler.ofContacts.plan.Plain := by
    refine ⟨by decide, ?_⟩
    intro g hg
    rcases hg with hg | hg
    · cases hg
      decide
    · cases hg
  have hmodel : ∀ m, Compiler.ofContacts.plan.model = some m → m.tooling = false := by
    intro m hm
    cases hm
  have hmemo : ofContacts.memo.Faithful ofContacts.plan.joins := by
    intro t ht
    cases ht
  have htext : (Compiler.ofContacts.compile {}).1.result.toOption.map Sql.text =
      some ("SELECT Contact.Account.Name, COUNT(Id) n FROM Contact WHERE LOWER(Contact.Account.Name) " ++
        "LIKE %s GROUP BY Contact.Account.Name ORDER BY COUNT(Id) DESC NULLS LAST") := by
    decide +kernel
  cases hresult : (Compiler.ofContacts.compile {}).1.result with
  | error e =>
    rw [hresult] at htext
    cases htext
  | ok q =>
    rw [hresult] at htext
    have hq : q.text = _ := Option.some_inj.1 htext
    refine ⟨q, rfl, hq, Compiler.compile_eq_substitution ofContacts rfl hmemo hplain hmodel {} hresult ?_⟩
    rw [hq]
    decide

end PathQuery
