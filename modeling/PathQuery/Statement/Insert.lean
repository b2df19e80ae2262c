import PathQuery.Statement.Context
/-!
# INSERT

New rows, each with one value to a field. A backend that can insert in bulk takes them in one statement,
any other in one statement to a row.
-/

namespace PathQuery

structure Insert where
  table : String
  fields : List String
  rows : List Row
  options : Options := {}

namespace Insert

/-- The statement up to the values. -/
def head (i : Insert) (backend : Backend) : String :=
  "INSERT INTO " ++ backend.quoteName i.table ++ " (" ++
    Text.joinWith ", " (i.fields.map backend.quoteName) ++ ") VALUES "

/-- The placeholders of one row. -/
def rowText (i : Insert) : String :=
  "(" ++ Sql.placeholders i.fields.length ++ ")"

def statements (i : Insert) (backend : Backend) : List Sql :=
  if i.rows.isEmpty then []
  else if backend.features.bulkInsert then
    [⟨i.head backend ++ Text.joinWith ", " (Text.repeated i.rows.length i.rowText), i.rows.flatten⟩]
  else i.rows.map fun row => ⟨i.head backend ++ i.rowText, row⟩

end Insert

end PathQuery
