import PathQuery.Sql
/-!
# Column expressions

What can be selected, compared, grouped by or sorted by: a column of an aliased table, a function of
one argument, the number of rows, or text that is taken as it is.
-/

namespace PathQuery

inductive Expr
  | column (source field : String)
  | call (function : String) (argument : Expr)
  | countAll
  | raw (sql : Sql)
  deriving Inhabited

namespace Expr

/-- The text of the row count. -/
def countAllText : String := "COUNT(Id)"

/-- The expression as text, its column qualified by the alias of its table. -/
def render : Expr → Sql
  | .column source field => .plain (source ++ "." ++ field)
  | .call function argument =>
    let inner := argument.render
    ⟨function ++ "(" ++ inner.text ++ ")", inner.params⟩
  | .countAll => .plain countAllText
  | .raw sql => sql

/-- The alias of the table that the expression reads, if it names one. -/
def source? : Expr → Option String
  | .column source _ => some source
  | .call _ argument => argument.source?
  | .countAll => none
  | .raw _ => none

end Expr

end PathQuery
