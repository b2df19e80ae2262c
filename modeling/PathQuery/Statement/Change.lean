import PathQuery.Relation.Resolve
import PathQuery.Statement.Context
/-!
# UPDATE and DELETE

Both change the rows of one table that a filter picks out. A filter that holds of nothing makes the
statement empty.
-/

namespace PathQuery

/-- The table and the filter of a statement, if the filter holds of anything. -/
def Plan.target (p : Plan) (settings : Settings) : Report StatementError (Option (String × Sql)) := do
  let tree ← .ofExcept ((Tree.resolve p.joins).mapError .relation)
  let table ← .ofExcept (p.table tree)
  let filter ← compileFilter (p.naming settings tree) p.filter
  return filter.map (table, ·)

/-- A statement followed by its filter. -/
def filtered (statement : Sql) (filter : Sql) : Sql :=
  if filter.isEmpty then ⟨statement.text, statement.params ++ filter.params⟩
  else ⟨statement.text ++ " WHERE " ++ filter.text, statement.params ++ filter.params⟩

def assignment (backend : Backend) (field : String) : String :=
  backend.quoteName field ++ " = " ++ Sql.placeholder

/-- The statement that sets fields to values. Without fields it is empty. -/
def Plan.update (p : Plan) (backend : Backend) (settings : Settings)
    (values : List (String × Value)) : Report StatementError Sql := do
  if values.isEmpty then return .empty
  let some (table, filter) ← p.target settings | return .empty
  let assignments := Text.joinWith ", " (values.map fun (field, _) => assignment backend field)
  return filtered
    ⟨"UPDATE " ++ backend.quoteName table ++ " SET " ++ assignments, values.map Prod.snd⟩ filter

/-- The statement that deletes rows. -/
def Plan.delete (p : Plan) (backend : Backend) (settings : Settings) : Report StatementError Sql := do
  let some (table, filter) ← p.target settings | return .empty
  return filtered (.plain ("DELETE FROM " ++ backend.quoteName table)) filter

end PathQuery
