import PathQuery.Plan.Basic
/-!
# The columns of a plan

Before a plan is compiled, its selected, sorted, grouped and distinct expressions are rendered, one piece
of text to each, and every reference to an alias is counted. References are the columns under any
nesting of functions, in those lists and on the left-hand sides of all lookups.
-/

namespace PathQuery

structure SelectedColumn where
  sql : Sql
  label : Option String
  deriving Inhabited

/-- The rendered expressions of a plan, each list in the plan's order. -/
structure Columns where
  select : List SelectedColumn
  orderBy : List Sql
  groupBy : List Sql
  distinctOn : List String
  distinctParams : List Value

namespace Plan

/-- Selected expressions, the extra ones last. -/
def projections (p : Plan) : List Projection :=
  p.select ++ p.extraSelect

def columns (p : Plan) : Columns where
  select := p.projections.map fun item => ⟨item.expr.render, item.label⟩
  orderBy := p.orderBy.map SortKey.render
  groupBy := p.groupBy.map Expr.render
  distinctOn := p.distinctOn.map fun e => e.render.text
  distinctParams := p.distinctOn.flatMap fun e => e.render.params

def filterColumns (filter : Option Filter) : List Expr :=
  filter.elim [] Filter.columns

/-- Every expression of a plan that may refer to an alias. -/
def expressions (p : Plan) : List Expr :=
  p.projections.map Projection.expr ++ p.orderBy.map SortKey.expr ++ p.groupBy ++ p.distinctOn ++
    filterColumns p.filter ++ filterColumns p.having

/-- Counts one reference to an alias. -/
def refer (p : Plan) (name : String) : Plan :=
  { p with references := p.references.insert name ((p.references.get? name).getD 0 + 1) }

/-- Sets the reference counts. -/
def withReferences (p : Plan) (references : Dict UInt64) : Plan :=
  { p with references }

/-- The rendered columns, and the plan with their references counted. -/
def prepare (p : Plan) : Columns × Plan :=
  (p.columns, (p.expressions.filterMap Expr.source?).foldl refer p)

end Plan

end PathQuery
