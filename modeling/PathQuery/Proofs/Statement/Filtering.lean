import PathQuery.Proofs.Condition.Meaning
import PathQuery.Proofs.Erasure
import PathQuery.Proofs.Statement.Assembly
import PathQuery.Proofs.Statement.Change
/-!
# Which rows a statement is about

A query, a deletion and an update of one plan name the same table and end with the same filter, which is
compiled in the same way for all three. They part only on tooling objects: the query loses the object's table
wherever it stands with a dot behind it, the other two keep it. So their filters are the same text exactly
when the table does not occur so.
-/

namespace PathQuery

/-! ### The text of a filter -/

theorem compileFilter_params {naming : Naming} {filter : Option Filter} {sql : Sql}
    (h : (compileFilter naming filter).result = .ok (some sql)) (hempty : sql.isEmpty) : sql.params = [] := by
  cases filter with
  | none =>
    rw [compileFilter_none h]
    rfl
  | some g =>
    rcases compileFilter_some h with ⟨rfl, -⟩ | ⟨resolved, hcompile⟩
    · rfl
    · obtain ⟨-, f, hf⟩ := g.compile_settles (naming.rename_proper Lookup.predicate) [] hcompile
      exact absurd (String.isEmpty_iff.1 hempty) hf.text_ne

namespace Plan

/-! ### Clauses on the wire -/

/-- A clause of a query as it is sent: tooling objects lose their table and the dot behind it. -/
def onWire (p : Plan) (text : String) : String :=
  match p.model.filter Model.tooling with
  | some model => Text.eraseAll (model.table ++ ".") text
  | none => text

variable {p : Plan}

theorem unqualify_eq_map (texts : List String) : Select.unqualify p texts = texts.map p.onWire := by
  rw [Select.unqualify]
  split
  · rename_i model hmodel
    refine List.map_congr_left fun text _ => ?_
    rw [onWire, hmodel]
  · rename_i hmodel
    refine (List.map_id texts).symm.trans (List.map_congr_left fun text _ => ?_)
    rw [onWire, hmodel, id_eq]

theorem onWire_eq_self_iff {text : String} :
    p.onWire text = text ↔
      ∀ m, p.model = some m → m.tooling → ¬ (m.table ++ ".").toList <:+: text.toList := by
  have hne (m : Model) : m.table ++ "." ≠ "" := by simp
  rw [onWire]
  split
  · rename_i model hmodel
    obtain ⟨hsome, htooling⟩ := Option.filter_eq_some_iff.1 hmodel
    rw [Text.eraseAll_eq_self_iff (hne model), hsome]
    constructor
    · rintro h m hm -
      cases hm
      exact h
    · exact fun h => h model rfl htooling
  · rename_i hmodel
    exact iff_of_true rfl fun m hm htooling => absurd htooling (Option.filter_eq_none_iff.1 hmodel m hm)

theorem onWire_dotless {text : String} (htext : '.' ∉ text.toList) : p.onWire text = text := by
  refine onWire_eq_self_iff.2 fun m _ _ hoccurs => htext (hoccurs.subset ?_)
  simp

theorem map_onWire_dotless {texts : List String} (htexts : ∀ text ∈ texts, '.' ∉ text.toList) :
    texts.map p.onWire = texts :=
  (List.map_congr_left fun text htext => onWire_dotless (htexts text htext)).trans (List.map_id texts)

/-- Whatever of a statement holds the table nowhere is sent as it is. -/
theorem onWire_unchanged_iff {table : String} {clause : Option String} :
    p.onWire table = table ∧ clause.map p.onWire = clause ↔
      ∀ m, p.model = some m → m.tooling → ∀ text ∈ table :: clause.toList,
        ¬ (m.table ++ ".").toList <:+: text.toList := by
  have hall : p.onWire table = table ∧ clause.map p.onWire = clause ↔
      ∀ text ∈ table :: clause.toList, p.onWire text = text := by
    cases clause <;> simp
  rw [hall]
  constructor
  · intro h m hm htooling text htext
    exact onWire_eq_self_iff.1 (h text htext) m hm htooling
  · intro h text htext
    exact onWire_eq_self_iff.2 fun m hm htooling => h m hm htooling text htext

/-! ### Plans with nothing but a filter -/

/-- The plan asks for rows by a filter only, and selects expressions without values. -/
structure FiltersOnly (p : Plan) : Prop where
  groupBy : p.groupBy = []
  having : p.having = none
  orderBy : p.orderBy = []
  distinct : p.distinct = false
  window : p.window = {}
  forUpdate : p.forUpdate = false
  explain : p.explain = none
  valueless : ∀ item ∈ p.projections, item.expr.render.params = []

/-- A clause behind a statement, if there is one. -/
def behind (clause : Option String) : String :=
  clause.elim "" (" " ++ ·)

/-- The clause of a filter. -/
def whereClause (filter : Sql) : Option String :=
  if filter.isEmpty then none else some ("WHERE " ++ filter.text)

theorem filtered_eq (statement : Sql) (filter : Sql) :
    filtered statement filter =
      ⟨statement.text ++ behind (whereClause filter), statement.params ++ filter.params⟩ := by
  have hword : " WHERE " = " " ++ "WHERE " := rfl
  rw [filtered, whereClause]
  split
  · rw [behind, Option.elim_none, String.append_empty]
  · rw [behind, Option.elim_some, hword, String.append_assoc, String.append_assoc]

variable {ctx : Context} {tree : Tree} {form : SelectForm}

theorem FiltersOnly.compile_eq (hplan : p.FiltersOnly) :
    (Compiler.compile { context := ctx, plan := p } form).1 =
      match Tree.resolve p.joins with
      | .error e => .fail (.relation e)
      | .ok tree => Select.assemble ctx p p.columns tree form := by
  rw [Compiler.compile_eq (c := { context := ctx, plan := p }) (Memo.faithful_empty p.joins) form]
  refine if_neg ?_
  rw [hplan.window, Bool.and_eq_true]
  rintro ⟨-, hempty⟩
  cases hempty

theorem FiltersOnly.clause_eq (hplan : p.FiltersOnly) {parts : Select.Parts}
    (hparts : parts.Of ctx p p.columns tree form) :
    parts.clause ctx p p.columns form =
      ⟨["SELECT", Text.joinWith ", " parts.columns, "FROM", parts.table] ++
        (whereClause parts.filter).toList, parts.filter.params⟩ := by
  have hexplain : parts.explain = {} := by
    have h := hparts.explain
    rw [Select.explainClause, hplan.explain] at h
    exact (Except.ok.inj h).symm
  have hdistinct : parts.distinct = {} := by
    have h := hparts.distinct
    rw [Select.distinctClause, hplan.distinct] at h
    exact (Except.ok.inj h).symm
  have hgroupBy : p.columns.groupBy = [] := by
    rw [columns, hplan.groupBy, List.map_nil]
  have hgroups : parts.groups = [] := by
    have h := hparts.groups
    rw [hgroupBy] at h
    exact (Except.ok.inj h).symm
  have hhaving : parts.having = .empty := by
    have h := hparts.having
    rw [hplan.having] at h
    exact compileFilter_none h
  have hkeys : Select.sortKeys ctx p.columns = [] := by
    rw [Select.sortKeys, hgroupBy, columns, hplan.orderBy]
    rfl
  have hsorts : parts.sorts = [] := by
    have h := hparts.sorts
    rw [hkeys] at h
    exact (Except.ok.inj h).symm
  have hlock : parts.lock = {} := by
    have h := hparts.lock
    rw [Select.lockClause, hplan.forUpdate] at h
    exact (Except.ok.inj h).symm
  have hlimits : (if form.limits then Select.limitClause ctx.backend.noLimit p.window else {}) = {} := by
    rw [hplan.window]
    exact ite_self _
  have hvalues : (p.columns.select.flatMap fun c => c.sql.params) = [] := by
    rw [columns, List.flatMap_map, List.flatMap_eq_nil_iff]
    exact hplan.valueless
  have hcondition : Clause.condition "WHERE" parts.filter =
      ⟨(whereClause parts.filter).toList, parts.filter.params⟩ := by
    rw [Clause.condition, whereClause]
    split
    · rename_i hempty
      rw [compileFilter_params hparts.filter hempty]
      rfl
    · rfl
  rw [Select.Parts.clause, hexplain, hdistinct, hgroups, hhaving, hkeys, hsorts, hlock, hlimits, hgroupBy,
    hvalues, hcondition]
  -- All clauses but those of the columns, the table and the filter are empty.
  refine congrArg₂ Clause.mk ?_ ?_
  · simp [Clause.listing, Clause.condition, Sql.empty, Sql.isEmpty]
  · simp [Clause.listing, Clause.condition, Sql.empty, Sql.isEmpty, Select.paramsOf, Clause.word]

/-! ### The three statements -/

theorem target_eq {settings : Settings} {table : String} {outcome : Option Sql}
    (hresolve : Tree.resolve p.joins = .ok tree) (htable : p.table tree = .ok table)
    (hfilter : (compileFilter (p.naming settings tree) p.filter).result = .ok outcome) :
    (p.target settings).result = .ok (outcome.map (table, ·)) := by
  rw [target, hresolve]
  refine Report.bind_result_eq_ok.2 ⟨tree, rfl, ?_⟩
  refine Report.bind_result_eq_ok.2 ⟨table, htable, ?_⟩
  exact Report.bind_result_eq_ok.2 ⟨outcome, hfilter, rfl⟩

theorem delete_eq {settings : Settings} {backend : Backend} {target : Option (String × Sql)}
    (htarget : (p.target settings).result = .ok target) :
    (p.delete backend settings).result = .ok (target.elim .empty fun found =>
      filtered (.plain ("DELETE FROM " ++ backend.quoteName found.1)) found.2) := by
  refine Report.bind_result_eq_ok.2 ⟨target, htarget, ?_⟩
  cases target <;> rfl

theorem update_eq {settings : Settings} {backend : Backend} {values : List (String × Value)}
    (hvalues : values ≠ []) {target : Option (String × Sql)}
    (htarget : (p.target settings).result = .ok target) :
    (p.update backend settings values).result = .ok (target.elim .empty fun found =>
      filtered ⟨"UPDATE " ++ backend.quoteName found.1 ++ " SET " ++
        Text.joinWith ", " (values.map fun entry => assignment backend entry.1), values.map Prod.snd⟩
        found.2) := by
  rw [update, if_neg (by simpa using hvalues)]
  refine Report.bind_result_eq_ok.2 ⟨target, htarget, ?_⟩
  cases target <;> rfl

theorem assignments_soql {features : Features} {autocommit : Bool} (values : List (String × Value)) :
    (values.map fun entry => assignment (.soql features autocommit) entry.1) =
      values.map fun entry => entry.1 ++ " = %s" := by
  refine List.map_congr_left fun entry _ => ?_
  rw [assignment, String.append_assoc]
  rfl

/-- A query that is not empty, in terms of its table and its filter. -/
theorem FiltersOnly.select_eq (hplan : p.FiltersOnly) {parts : Select.Parts}
    (hparts : parts.Of ctx p p.columns tree form) :
    ∃ columns, Text.joinWith " " (Select.unqualify p (parts.clause ctx p p.columns form).texts) =
      "SELECT " ++ columns ++ " FROM " ++ p.onWire parts.table ++
        behind ((whereClause parts.filter).map p.onWire) := by
  have hselect : p.onWire "SELECT" = "SELECT" := onWire_dotless (by decide)
  have hfrom : p.onWire "FROM" = "FROM" := onWire_dotless (by decide)
  have hwords : "SELECT " = "SELECT" ++ " " ∧ " FROM " = " " ++ ("FROM" ++ " ") := ⟨rfl, rfl⟩
  refine ⟨p.onWire (Text.joinWith ", " parts.columns), ?_⟩
  rw [hplan.clause_eq hparts, unqualify_eq_map, List.map_append, List.map_cons, List.map_cons, List.map_cons,
    List.map_cons, List.map_nil, hselect, hfrom, hwords.1, hwords.2]
  cases whereClause parts.filter with
  | none =>
    simp only [Option.toList_none, List.map_nil, List.append_nil, Text.joinWith, behind, Option.map_none,
      Option.elim_none, String.append_empty, String.append_assoc]
  | some clause =>
    simp only [Option.toList_some, List.map_cons, List.map_nil, List.cons_append, List.nil_append,
      Text.joinWith, behind, Option.map_some, Option.elim_some, String.append_assoc]

/-- **Statements with one filter.** Where the query of a plan can be compiled, so can its deletion and its
update. All three are empty, or they name one table, end with one clause and bind the same values for it; the
query says so as tooling objects want it. That changes neither table nor clause exactly when the object's
table occurs in neither with a dot behind it. -/
theorem filters_alike (hplan : p.FiltersOnly) {features : Features} {autocommit : Bool}
    (hbackend : ctx.backend = .soql features autocommit) {values : List (String × Value)} (hvalues : values ≠ [])
    {q : Sql} (hselect : (Compiler.compile { context := ctx, plan := p } form).1.result = .ok q) :
    ∃ d u, (p.delete ctx.backend ctx.settings).result = .ok d ∧
      (p.update ctx.backend ctx.settings values).result = .ok u ∧
      (q = .empty ∧ d = .empty ∧ u = .empty ∨
        ∃ columns table clause params,
          q = ⟨"SELECT " ++ columns ++ " FROM " ++ p.onWire table ++ behind (clause.map p.onWire), params⟩ ∧
          d = ⟨"DELETE FROM " ++ table ++ behind clause, params⟩ ∧
          u = ⟨"UPDATE " ++ table ++ " SET " ++
              Text.joinWith ", " (values.map fun entry => entry.1 ++ " = %s") ++ behind clause,
            values.map Prod.snd ++ params⟩ ∧
          (p.onWire table = table ∧ clause.map p.onWire = clause ↔
            ∀ m, p.model = some m → m.tooling → ∀ text ∈ table :: clause.toList,
              ¬ (m.table ++ ".").toList <:+: text.toList)) := by
  rw [hplan.compile_eq] at hselect
  cases hresolve : Tree.resolve p.joins with
  | error e =>
    rw [hresolve] at hselect
    cases hselect
  | ok tree =>
    rw [hresolve] at hselect
    rcases Select.assemble_stages hselect with ⟨rfl, ⟨table, htable⟩, hnothing⟩ | ⟨parts, hparts, rfl, -⟩
    · have hfilter : (compileFilter (p.naming ctx.settings tree) p.filter).result = .ok none := by
        rcases hnothing with hnothing | hnothing
        · exact hnothing
        · rw [hplan.having] at hnothing
          cases hnothing
      have htarget := target_eq hresolve htable hfilter
      exact ⟨_, _, delete_eq htarget, update_eq hvalues htarget, .inl ⟨rfl, rfl, rfl⟩⟩
    · have htarget := target_eq hresolve hparts.table hparts.filter
      obtain ⟨columns, hcolumns⟩ := hplan.select_eq hparts
      refine ⟨_, _, delete_eq htarget, update_eq hvalues htarget, .inr ⟨columns, parts.table,
        whereClause parts.filter, parts.filter.params, ?_, ?_, ?_, ?_⟩⟩
      · rw [hcolumns, hplan.clause_eq hparts]
      · rw [hbackend]
        exact filtered_eq _ _
      · rw [hbackend, ← assignments_soql]
        exact filtered_eq _ _
      · exact onWire_unchanged_iff

/-- The contacts of the accounts with a given name, by their own name. -/
def namesOfAcme : Plan :=
  { contactsOfAcme with select := [⟨.column "C" "Name", none⟩] }

theorem namesOfAcme_alike :
    namesOfAcme.FiltersOnly ∧
      ∃ q d u, (Compiler.compile { context := .of .soql {}, plan := namesOfAcme } {}).1.result = .ok q ∧
        (namesOfAcme.delete .soql {}).result = .ok d ∧
        (namesOfAcme.update .soql {} [("Email", .null)]).result = .ok u ∧
        ∃ columns table clause params,
          q = ⟨"SELECT " ++ columns ++ " FROM " ++ table ++ behind clause, params⟩ ∧
          d = ⟨"DELETE FROM " ++ table ++ behind clause, params⟩ ∧
          u = ⟨"UPDATE " ++ table ++ " SET Email = %s" ++ behind clause, .null :: params⟩ := by
  have hplan : namesOfAcme.FiltersOnly := ⟨rfl, rfl, rfl, rfl, rfl, rfl, rfl, by decide⟩
  have htext : (Compiler.compile { context := .of .soql {}, plan := namesOfAcme } {}).1.result.toOption.map
      Sql.text = some "SELECT Contact.Name FROM Contact WHERE Contact.Account.Name = %s" := by decide +kernel
  obtain ⟨q, hq, htext⟩ := exists_eq_ok_of_map htext
  obtain ⟨d, u, hd, hu, halike⟩ := filters_alike hplan rfl (List.cons_ne_nil ("Email", Value.null) []) hq
  rcases halike with ⟨rfl, -⟩ | ⟨columns, table, clause, params, hselect, hdelete, hupdate, hwire⟩
  · exact absurd htext (by decide)
  · obtain ⟨htable, hclause⟩ : namesOfAcme.onWire table = table ∧ clause.map namesOfAcme.onWire = clause := by
      refine hwire.2 fun m hm htooling => ?_
      cases hm
      cases htooling
    rw [htable, hclause] at hselect
    have hset : "UPDATE " ++ table ++ " SET " ++ ("Email" ++ " = %s") = "UPDATE " ++ table ++ " SET Email = %s" :=
      String.append_assoc
    refine ⟨hplan, q, d, u, hq, hd, hu, columns, table, clause, params, hselect, hdelete, ?_⟩
    rw [← hset]
    exact hupdate

/-- The classes with a given name. -/
def classesOfAcme : Plan where
  model := some { table := "ApexClass", tooling := true }
  joins := [.base "ApexClass" "K"]
  select := [⟨.column "K" "Name", none⟩]
  filter := some (.all [.lookup ⟨.column "K" "Name", .exact, .single (.text "Acme")⟩])

theorem classesOfAcme_differ :
    classesOfAcme.FiltersOnly ∧
      ∃ q d, (Compiler.compile { context := .of .soql {}, plan := classesOfAcme } {}).1.result = .ok q ∧
        (classesOfAcme.delete .soql {}).result = .ok d ∧
        q.text = "SELECT Name FROM ApexClass WHERE Name = %s" ∧
        d.text = "DELETE FROM ApexClass WHERE ApexClass.Name = %s" ∧
        ¬ ∃ columns table w, q.text = "SELECT " ++ columns ++ " FROM " ++ table ++ w ∧
          d.text = "DELETE FROM " ++ table ++ w := by
  have hselect : (Compiler.compile { context := .of .soql {}, plan := classesOfAcme } {}).1.result.toOption.map
      Sql.text = some "SELECT Name FROM ApexClass WHERE Name = %s" := by decide +kernel
  have hdelete : (classesOfAcme.delete .soql {}).result.toOption.map Sql.text =
      some "DELETE FROM ApexClass WHERE ApexClass.Name = %s" := by decide +kernel
  obtain ⟨q, hq, hqtext⟩ := exists_eq_ok_of_map hselect
  obtain ⟨d, hd, hdtext⟩ := exists_eq_ok_of_map hdelete
  refine ⟨⟨rfl, rfl, rfl, rfl, rfl, rfl, rfl, by decide⟩, q, d, hq, hd, hqtext, hdtext, ?_⟩
  rintro ⟨columns, table, w, hsplit, hrest⟩
  -- The rest of the deletion is too long to be the rest of the query.
  rw [hqtext] at hsplit
  rw [hdtext] at hrest
  have hlong := congrArg String.length hsplit
  have hshort := congrArg String.length hrest
  simp only [String.length_append] at hlong hshort
  have hlengths : "SELECT Name FROM ApexClass WHERE Name = %s".length = 42 ∧
      "DELETE FROM ApexClass WHERE ApexClass.Name = %s".length = 47 ∧ "SELECT ".length = 7 ∧
      " FROM ".length = 6 ∧ "DELETE FROM ".length = 12 := by decide
  omega

end Plan

end PathQuery
