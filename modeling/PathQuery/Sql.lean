import PathQuery.Value
/-!
# Query text

A piece of query text with placeholders, each written `%s`, and the values bound to them in order. Whole
queries have the same form as their pieces. The empty text is the query that need not be sent, because
it is known to match nothing.
-/

namespace PathQuery

structure Sql where
  text : String := ""
  params : List Value := []
  deriving Inhabited

namespace Sql

def empty : Sql := {}

def isEmpty (sql : Sql) : Bool :=
  sql.text.isEmpty

/-- Text without placeholders. -/
def plain (text : String) : Sql := { text }

/-- What stands for a bound value. -/
def placeholder : String := "%s"

/-- `n` placeholders, separated by commas. -/
def placeholders (n : Nat) : String :=
  Text.joinWith ", " (Text.repeated n placeholder)

end Sql

end PathQuery
