import PathQuery.Relation.Memo
import PathQuery.Statement.Select
/-!
# The compiler of a plan

A compiler holds one plan and the relationship trees it has found so far. Compiling counts references in
the plan while it lasts, and restores the counts whatever happens.
-/

namespace PathQuery

structure Compiler where
  context : Context
  plan : Plan
  memo : Memo := {}

namespace Compiler

/-- The relationship tree of the plan. -/
def tree (c : Compiler) : Except StatementError Tree × Compiler :=
  let (found, memo) := c.memo.resolve c.plan.joins
  (found.mapError .relation, { c with memo })

/-- Compiles the plan with its references counted. -/
def compileCounted (c : Compiler) (cols : Columns) (form : SelectForm) :
    Report StatementError Sql × Compiler :=
  if form.limits && c.plan.window.isEmpty then (pure .empty, c)
  else
    match c.tree with
    | (.error e, c) => (.fail e, c)
    | (.ok tree, c) => (Select.assemble c.context c.plan cols tree form, c)

/-- The query of the plan. -/
def compile (c : Compiler) (form : SelectForm) : Report StatementError Sql × Compiler :=
  let counts := c.plan.references
  let (cols, plan) := c.plan.prepare
  let (report, c) := compileCounted { c with plan } cols form
  (report, { c with plan := c.plan.withReferences counts })

end Compiler

/-- The plan that selects aggregates over the rows of another: its columns are replaced, and sorting,
slicing, locking and explaining are dropped. -/
def Plan.aggregate (p : Plan) (aggregates : List Projection) : Plan :=
  { p with
    select := aggregates, extraSelect := [], orderBy := [], window := {}, forUpdate := false,
    explain := none }

end PathQuery
