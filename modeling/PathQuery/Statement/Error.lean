import PathQuery.Predicate
/-!
# Why a statement cannot be compiled or run
-/

namespace PathQuery

inductive StatementError
  | relation (e : RelationError)
  | naming (e : NamingError)
  | filter (e : FilterError)
  /-- Two features that cannot be combined. -/
  | combination (what : String)
  /-- A row lock outside of a transaction. -/
  | noTransaction
  /-- Something that the backend cannot do. -/
  | capability (what : String)
  | noTable
  | database (message : String)
  deriving DecidableEq, Repr

def StatementError.message : StatementError → String
  | .relation e =>
    "Only queries with one top child model are supported. Use a subquery. (" ++ e.message ++ ")"
  | .naming e => e.message
  | .filter e => e.message
  | .combination what => what ++ " is not implemented."
  | .noTransaction => "select_for_update cannot be used outside of a transaction."
  | .capability what => what ++ " is not supported on this database backend."
  | .noTable => "Query has no table to select from (empty alias map and no model)"
  | .database message => "Database error: " ++ message

end PathQuery
