import PathQuery.Dict
import PathQuery.Statement.Error
/-!
# Backends

What differs from one database to another: the quoting of names, the words of a few clauses, and the
features that are there at all. `Backend.soql` is the backend of the SOQL language.
-/

namespace PathQuery

structure Features where
  selectForUpdate : Bool := true
  nowait : Bool := false
  chunkedReads : Bool := true
  explain : Bool := true
  bulkInsert : Bool := true
  /-- An insert of several rows can give back rows. -/
  rowsFromBulkInsert : Bool := true
  /-- An insert can give back a column of the new row. -/
  columnsFromInsert : Bool := true
  /-- An insert can give back several columns of the new row. -/
  severalColumnsFromInsert : Bool := false
  deriving DecidableEq, Inhabited, Repr

structure Backend where
  quoteName : String → String
  /-- The words after SELECT that keep rows distinct, in the given fields if there are any, and their
  values. -/
  distinct : List String → List Value → Except StatementError (List String × List Value)
  /-- The lock on the rows that are read, which may have to be had at once. -/
  lock : Bool → String
  /-- The words before a query that is to be explained, in a format and with options. -/
  explain : Option String → Dict String → Except StatementError String
  /-- The limit that stands for none, where an offset needs one. -/
  noLimit : Option UInt64
  /-- The sort keys of grouped queries that are given none. -/
  unordered : List Sql
  features : Features
  /-- No transaction is open. -/
  autocommit : Bool

namespace Backend

/-- Letters of ASCII without regard to case. -/
def sameLetters (s t : String) : Bool :=
  s.toList.map Char.toLower == t.toList.map Char.toLower

/-- Names are never quoted. Rows are distinct as a whole only, and queries are explained as text only and
without options. -/
def soql (features : Features := {}) (autocommit : Bool := true) : Backend where
  quoteName name := name
  distinct fields params :=
    if fields.isEmpty then .ok (["DISTINCT"], params) else .error (.capability "DISTINCT ON fields")
  lock nowait := if nowait then "FOR UPDATE NOWAIT" else "FOR UPDATE"
  explain format options :=
    if !features.explain then .error (.capability "Explaining query execution")
    else
      match format.filter fun format => !sameLetters format "TEXT", options.keys with
      | some format, _ => .error (.capability ("EXPLAIN format " ++ format))
      | none, option :: _ => .error (.capability ("EXPLAIN option " ++ option))
      | none, [] => .ok "EXPLAIN"
  noLimit := none
  unordered := []
  features := features
  autocommit := autocommit

end Backend

end PathQuery
