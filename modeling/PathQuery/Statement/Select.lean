import PathQuery.Plan.Columns
import PathQuery.Plan.Window
import PathQuery.Statement.Context
/-!
# SELECT

A query is put together from its clauses, in the order of the language. A clause is a text, or several,
and values for its placeholders, and clauses are joined by blanks. A query whose filters hold of nothing
is empty.
-/

namespace PathQuery

/-- Texts of a query in order, and the values of their placeholders. -/
structure Clause where
  texts : List String := []
  params : List Value := []

namespace Clause

def append (a b : Clause) : Clause :=
  ⟨a.texts ++ b.texts, a.params ++ b.params⟩

instance : Append Clause :=
  ⟨append⟩

/-- A clause of one text without placeholders. -/
def word (text : String) : Clause := { texts := [text] }

/-- A keyword and a list of items; nothing without items. -/
def listing (keyword : String) (items : List String) (params : List Value) : Clause :=
  if items.isEmpty then { params }
  else ⟨[keyword ++ " " ++ Text.joinWith ", " items], params⟩

/-- A keyword and a condition; nothing without a condition. -/
def condition (keyword : String) (sql : Sql) : Clause :=
  if sql.isEmpty then {} else ⟨[keyword ++ " " ++ sql.text], sql.params⟩

end Clause

/-- How a query is to be written. -/
structure SelectForm where
  /-- With LIMIT and OFFSET. -/
  limits : Bool := true
  /-- With a name for each column that has no label. -/
  columnNames : Bool := false

namespace Select

/-- A selected column behind its renamed text. Labels go to function results only. Columns without
labels are counted from `index`, and are named by their number if names are asked for. -/
def column (backend : Backend) (names : Bool) (index : Nat) (label : Option String)
    (text : String) : String × Nat :=
  match label with
  | some label =>
    (if Text.endsWithChar ')' text then text ++ " " ++ backend.quoteName label else text, index)
  | none => if names then (text ++ " AS Col" ++ toString index, index + 1) else (text, index)

/-- The texts of the selected columns. -/
def columns (backend : Backend) (naming : Naming) (names : Bool) :
    Nat → List SelectedColumn → Report StatementError (List String)
  | _, [] => pure []
  | index, c :: rest => do
    let (text, next) := column backend names index c.label (← renameIn naming c.sql.text)
    return text :: (← columns backend naming names next rest)

/-- Fragments, each renamed. -/
def renameAll (naming : Naming) : List Sql → Report StatementError (List String)
  | [] => pure []
  | sql :: rest => do
    let text ← renameIn naming sql.text
    return text :: (← renameAll naming rest)

def paramsOf (pieces : List Sql) : List Value :=
  pieces.flatMap Sql.params

def distinctClause (ctx : Context) (plan : Plan) (cols : Columns) : Except StatementError Clause :=
  if plan.distinct then
    (ctx.backend.distinct cols.distinctOn cols.distinctParams).map fun (words, params) =>
      ⟨words, params⟩
  else .ok {}

def selectClause (ctx : Context) (naming : Naming) (names : Bool) (cols : Columns) :
    Report StatementError Clause := do
  let texts ← columns ctx.backend naming names 1 cols.select
  return ⟨[Text.joinWith ", " texts], cols.select.flatMap fun c => c.sql.params⟩

def groupClause (naming : Naming) (cols : Columns) : Report StatementError Clause := do
  let texts ← renameAll naming cols.groupBy
  if !texts.isEmpty && !cols.distinctOn.isEmpty then
    .fail (.combination "annotate() + distinct(fields)")
  else return .listing "GROUP BY" texts (paramsOf cols.groupBy)

/-- The words in front of a query that is to be explained. -/
def explainClause (ctx : Context) (plan : Plan) : Except StatementError Clause :=
  match plan.explain with
  | none => .ok {}
  | some e =>
    if (e.format.isSome || !e.options.isEmpty) && !ctx.capabilities.explainOptions then
      .error (.capability "EXPLAIN with format or options")
    else (ctx.backend.explain e.format e.options).map Clause.word

/-- A grouped query without sort keys is sorted as the backend wants it. -/
def sortKeys (ctx : Context) (cols : Columns) : List Sql :=
  if !cols.groupBy.isEmpty && cols.orderBy.isEmpty then ctx.backend.unordered else cols.orderBy

def orderClause (naming : Naming) (keys : List Sql) : Report StatementError Clause := do
  let texts ← renameAll naming keys
  return .listing "ORDER BY" texts (paramsOf keys)

/-- The rows of a window: how many, and from which on. -/
def limitClause (noLimit : Option UInt64) (w : Window) : Clause :=
  let limit (n : UInt64) : Clause := .word ("LIMIT " ++ toString n.toNat)
  let offset : Clause := .word ("OFFSET " ++ toString w.low.toNat)
  match w.high with
  | some high =>
    limit (if w.low ≤ high then high - w.low else 0) ++ if 0 < w.low then offset else {}
  | none => if 0 < w.low then noLimit.elim {} limit ++ offset else {}

def lockClause (ctx : Context) (plan : Plan) : Except StatementError Clause :=
  if plan.forUpdate && ctx.backend.features.selectForUpdate then
    if ctx.backend.autocommit then .error .noTransaction
    else if plan.nowait && !ctx.backend.features.nowait then .error (.capability "NOWAIT")
    else .ok (.word (ctx.backend.lock plan.nowait))
  else .ok {}

/-- Tooling objects take no table qualification anywhere. -/
def unqualify (plan : Plan) (texts : List String) : List String :=
  match plan.model.filter Model.tooling with
  | some model => texts.map (Text.eraseAll (model.table ++ "."))
  | none => texts

/-- The query of a plan whose joins form `tree` and whose columns are rendered. -/
def assemble (ctx : Context) (plan : Plan) (cols : Columns) (tree : Tree) (form : SelectForm) :
    Report StatementError Sql := do
  let table ← .ofExcept (plan.table tree)
  let naming := plan.naming ctx.settings tree
  let some filter ← compileFilter naming plan.filter | return .empty
  let some having ← compileFilter naming plan.having | return .empty
  let distinct ← .ofExcept (distinctClause ctx plan cols)
  let select ← selectClause ctx naming form.columnNames cols
  let group ← groupClause naming cols
  let explain ← .ofExcept (explainClause ctx plan)
  let order ← orderClause naming (sortKeys ctx cols)
  let limits := if form.limits then limitClause ctx.backend.noLimit plan.window else {}
  let lock ← .ofExcept (lockClause ctx plan)
  let all := explain ++ .word "SELECT" ++ distinct ++ select ++ ⟨["FROM", table], []⟩ ++
    .condition "WHERE" filter ++ group ++ .condition "HAVING" having ++ order ++ limits ++ lock
  return ⟨Text.joinWith " " (unqualify plan all.texts), all.params⟩

end Select

end PathQuery
