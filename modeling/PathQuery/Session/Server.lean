import PathQuery.Plan.Basic
import PathQuery.Statement.Error
/-!
# Servers

A database is met through a connection that opens cursors, and cursors that run statements and hand out
rows. A `Server` is what such a database answers: each answer may depend on all calls that were made
before, so a server is a family of functions of the history. It may fail where a call can fail at all.

A cursor does not hand out rows without end: there is a count of the rows left that goes down with every
fetch that gives a row.
-/

namespace PathQuery

/-- What is asked of a cursor. -/
inductive Request
  | prepare (options : Options)
  | execute (sql : Sql)
  | fetchOne
  | fetchMany (count : Nat)
  | rowCount
  | lastInsertId
  | close

/-- A call on a connection: to open a cursor, or a request to one. Cursors are numbered in the order in
which they were asked for. -/
inductive Call
  | cursor
  | on (cursor : Nat) (request : Request)

/-- The calls of a connection, the earliest first. -/
abbrev History := List Call

def Call.isCursor : Call → Bool
  | .cursor => true
  | .on _ _ => false

structure Server where
  cursor : History → Except String Unit
  execute : Nat → Sql → History → Except String Unit
  fetchOne : Nat → History → Except String (Option Row)
  fetchMany : Nat → Nat → History → Except String (List Row)
  rowCount : Nat → History → Int
  lastInsertId : Nat → History → Except String (Option Value)
  /-- The rows that a cursor can still hand out. -/
  rowsLeft : Nat → History → Nat
  fetchOne_lt : ∀ c h row, fetchOne c h = .ok (some row) →
    rowsLeft c (h ++ [.on c .fetchOne]) < rowsLeft c h
  fetchMany_lt : ∀ c n h row rows, fetchMany c n h = .ok (row :: rows) →
    rowsLeft c (h ++ [.on c (.fetchMany n)]) < rowsLeft c h

/-- A computation that talks to a server and may fail. What was said stays said. -/
abbrev Session := ExceptT StatementError (StateM History)

namespace Session

variable {α : Type}

/-- A computation that says nothing. -/
def ofExcept (e : Except StatementError α) : Session α := fun h => (e, h)

/-- Lets a computation fail without failing oneself. -/
def outcome (run : Session α) : Session (Except StatementError α) := fun h =>
  let (result, k) := run h
  (.ok result, k)

end Session

namespace Server

/-- Makes a call: the answer is what the server gives at that time. -/
def perform {α : Type} (call : Call) (answer : History → α) : StateM History α := fun h =>
  (answer h, h ++ [call])

/-- Makes a call that may fail. -/
def attempt {α : Type} (call : Call) (answer : History → Except String α) : Session α :=
  perform call fun h => (answer h).mapError .database

/-- Opens a cursor. -/
def openCursor (s : Server) : Session Nat :=
  attempt .cursor fun h => (s.cursor h).map fun _ => h.countP Call.isCursor

def prepareOn (c : Nat) (options : Options) : Session Unit :=
  perform (.on c (.prepare options)) fun _ => .ok ()

def executeOn (s : Server) (c : Nat) (sql : Sql) : Session Unit :=
  attempt (.on c (.execute sql)) (s.execute c sql)

def fetchOneFrom (s : Server) (c : Nat) : Session (Option Row) :=
  attempt (.on c .fetchOne) (s.fetchOne c)

def fetchManyFrom (s : Server) (c count : Nat) : Session (List Row) :=
  attempt (.on c (.fetchMany count)) (s.fetchMany c count)

def rowCountOf (s : Server) (c : Nat) : Session Int :=
  perform (.on c .rowCount) fun h => .ok (s.rowCount c h)

def lastInsertIdOf (s : Server) (c : Nat) : Session (Option Value) :=
  attempt (.on c .lastInsertId) (s.lastInsertId c)

def closeCursor (c : Nat) : Session Unit :=
  perform (.on c .close) fun _ => .ok ()

/-- Runs a computation on a cursor and closes the cursor, whatever the outcome. -/
def closing {α : Type} (c : Nat) (run : Session α) : Session α := do
  let result ← Session.outcome run
  closeCursor c
  Session.ofExcept result

end Server

end PathQuery
