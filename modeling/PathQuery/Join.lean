/-!
# Joins

A query reads tables under aliases. Each of them comes with a `Join`: the table, its alias, and, unless
it stands alone, the alias it is joined to and the pairs of columns that have to agree.
-/

namespace PathQuery

structure Join where
  parent : Option String := none
  table : String
  /-- A column of the parent and the column of this table that equals it. -/
  columns : List (String × String) := []
  name : String
  deriving DecidableEq, Inhabited, Repr

namespace Join

/-- A table that is joined to no other. -/
def base (table name : String) : Join := { table, name }

/-- A table joined to another one by a single pair of columns. -/
def single (parent table parentColumn ownColumn name : String) : Join :=
  { parent := some parent, table, columns := [(parentColumn, ownColumn)], name }

end Join

end PathQuery
