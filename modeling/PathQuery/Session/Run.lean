import PathQuery.Compiler
import PathQuery.Session.Stream
import PathQuery.Statement.Change
import PathQuery.Statement.Insert
/-!
# Running statements

A compiled statement is sent on a cursor of its own, after the plan's options, and what comes back is
shaped as the caller wants it. A statement that is empty is not sent at all.
-/

namespace PathQuery

/-- The shape that is asked for. -/
inductive Shape
  /-- All rows, in batches. -/
  | multi
  /-- The first row. -/
  | single
  /-- The cursor itself, still open. -/
  | cursor
  /-- The number of rows. -/
  | rowCount
  | noResults
  deriving DecidableEq, Inhabited, Repr

/-- What comes back. -/
inductive Result
  | rows (rows : List Row)
  | chunks (stream : Stream)
  | single (row : Option Row)
  | rowCount (count : Int)
  | cursor (cursor : Nat)
  | noResults

/-- All rows of a result. -/
def Result.intoRows (server : Server) : Result → Session (List Row)
  | .rows all => pure all
  | .chunks stream => stream.drain server
  | .single row => pure row.toList
  | .rowCount _ => pure []
  | .cursor _ => pure []
  | .noResults => pure []

namespace Run

/-- What the running of a query depends on, besides the query. -/
structure Fetch where
  shape : Shape := .multi
  /-- Rows are wanted in batches even from a backend that cannot read them so. -/
  chunked : Bool := false
  chunkSize : Nat

/-- Runs a statement on a new cursor; the cursor is closed if that fails. -/
def start (server : Server) (options : Options) (sql : Sql) : Session Nat := do
  let c ← server.openCursor
  Server.prepareOn c options
  match ← Session.outcome (server.executeOn c sql) with
  | .ok () => return c
  | .error e =>
    Server.closeCursor c
    throw e

/-- Runs a query and shapes its result. -/
def query (server : Server) (features : Features) (options : Options) (fetch : Fetch) (sql : Sql) :
    Session Result := do
  if sql.isEmpty then
    return if fetch.shape = .multi then .rows [] else .noResults
  let c ← start server options sql
  match fetch.shape with
  | .cursor => return .cursor c
  | .rowCount => Server.closing c (Result.rowCount <$> server.rowCountOf c)
  | .single => Server.closing c (Result.single <$> server.fetchOneFrom c)
  | .noResults => Server.closing c (pure .noResults)
  | .multi =>
    let chunks := Result.chunks { cursor := c, chunkSize := fetch.chunkSize }
    if !fetch.chunked && !features.chunkedReads then Result.rows <$> chunks.intoRows server
    else return chunks

/-- Runs a statement for the number of rows it changed. -/
def counted (server : Server) (options : Options) (sql : Sql) : Session Int := do
  if sql.isEmpty then return 0
  let c ← server.openCursor
  Server.prepareOn c options
  Server.closing c do
    let executed ← Session.outcome (server.executeOn c sql)
    let count ← server.rowCountOf c
    Session.ofExcept (executed.map fun _ => count)

/-- Runs a query for its only row. -/
def firstRow (server : Server) (options : Options) (sql : Sql) : Session (Option Row) := do
  if sql.isEmpty then return none
  let c ← server.openCursor
  Server.prepareOn c options
  Server.closing c do
    server.executeOn c sql
    server.fetchOneFrom c

/-- Rows one by one, to the last. -/
def fetchAll (server : Server) (c : Nat) (h : History) : Except StatementError (List Row) × History :=
  match _ : server.fetchOne c h with
  | .error e => (.error (.database e), h ++ [.on c .fetchOne])
  | .ok none => (.ok [], h ++ [.on c .fetchOne])
  | .ok (some row) =>
    let (rest, last) := fetchAll server c (h ++ [.on c .fetchOne])
    (rest.map (row :: ·), last)
termination_by server.rowsLeft c h
decreasing_by exact server.fetchOne_lt _ _ _ ‹_›

/-- Whether an insert gives back columns of the new rows. -/
def returnsColumns (ctx : Context) : Bool :=
  ctx.capabilities.insertReturning && ctx.backend.features.columnsFromInsert

/-- Whether an insert gives back the new rows one by one. -/
def returnsRows (ctx : Context) (i : Insert) : Bool :=
  1 < i.rows.length && ctx.backend.features.rowsFromBulkInsert

/-- What an insert is asked to give back has to be something the backend can give. -/
def checkReturning (ctx : Context) (i : Insert) (returning : List String) :
    Except StatementError Unit :=
  let features := ctx.backend.features
  if !returning.isEmpty && i.rows.length ≠ 1 && !features.rowsFromBulkInsert then
    .error (.combination "Returning fields from a bulk insert")
  else if returnsColumns ctx && !returnsRows ctx i && 1 < returning.length &&
      !features.severalColumnsFromInsert then
    .error (.combination "Returning multiple columns from INSERT statements")
  else .ok ()

/-- Sends statements one after the other. -/
def executeAll (server : Server) (c : Nat) : List Sql → Session Unit
  | [] => pure ()
  | sql :: rest => do
    server.executeOn c sql
    executeAll server c rest

/-- What is read back after an insert. -/
def readBack (server : Server) (ctx : Context) (i : Insert) (returning : List String) (c : Nat) :
    Session (List Row) := do
  if returning.isEmpty then return []
  else if returnsRows ctx i then fetchAll server c
  else if returnsColumns ctx then return (← server.fetchOneFrom c).toList
  else return [[(← server.lastInsertIdOf c).getD .null]]

/-- Inserts rows and reads back what is asked for. -/
def insert (server : Server) (ctx : Context) (i : Insert) (returning : List String) :
    Session (List Row) := do
  Session.ofExcept (checkReturning ctx i returning)
  let c ← server.openCursor
  Server.prepareOn c i.options
  Server.closing c do
    executeAll server c (i.statements ctx.backend)
    readBack server ctx i returning c

end Run

namespace Compiler

/-- Compiles the plan and runs the query. -/
def execute (c : Compiler) (server : Server) (fetch : Run.Fetch) (h : History) :
    List Warning × Except StatementError Result × Compiler × History :=
  if fetch.shape = .rowCount ∧ !c.context.capabilities.rowCount then
    ([], .error (.capability "Row count result type"), c, h)
  else
    let (report, c) := c.compile {}
    match report.result with
    | .error e => (report.warnings, .error e, c, h)
    | .ok sql =>
      let (result, h) := Run.query server c.context.backend.features c.plan.options fetch sql h
      (report.warnings, result, c, h)

end Compiler

end PathQuery
