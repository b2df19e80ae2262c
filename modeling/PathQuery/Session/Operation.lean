import PathQuery.Session.Run
/-!
# Operations

All that a caller can ask to be run: a query, an update, a deletion, an aggregate or an insert, each with
what it is compiled from. An operation whose compilation fails says nothing to the server. Whoever is given a
stream may ask for any number of batches before giving it up.
-/

namespace PathQuery

/-- Runs what a report has compiled. -/
def Run.compiled {α : Type} (report : Report StatementError Sql) (run : Sql → Session α) : Session α := do
  let sql ← Session.ofExcept report.result
  run sql

/-- Asks a stream for its next batch so many times. -/
def Stream.take (server : Server) : Nat → Stream → History → List Stream.Batch × Stream × History
  | 0, s, h => ([], s, h)
  | n + 1, s, h =>
    let (batch, s, h) := s.next server h
    let (batches, s, h) := Stream.take server n s h
    (batch :: batches, s, h)

/-- What was said once a result has been given up, after so many batches if it is a stream. A cursor that was
handed over is left alone. -/
def Result.giveUp (server : Server) (batches : Nat) : Result → History → History
  | .chunks stream, h =>
    let (_, stream, h) := Stream.take server batches stream h
    (stream.finish h).2
  | .rows _, h => h
  | .single _, h => h
  | .rowCount _, h => h
  | .cursor _, h => h
  | .noResults, h => h

inductive Operation
  | select (compiler : Compiler) (fetch : Run.Fetch)
  | update (context : Context) (plan : Plan) (values : List (String × Value))
  | delete (context : Context) (plan : Plan)
  | aggregate (context : Context) (plan : Plan) (aggregates : List Projection)
  | insert (context : Context) (insertion : Insert) (returning : List String)

namespace Operation

/-- Runs an operation. -/
def run (server : Server) : Operation → Session Result
  | .select compiler fetch => fun h =>
    let (_, result, _, h) := compiler.execute server fetch h
    (result, h)
  | .update context plan values =>
    Result.rowCount <$> Run.compiled (plan.update context.backend context.settings values)
      (Run.counted server plan.options)
  | .delete context plan =>
    Result.rowCount <$> Run.compiled (plan.delete context.backend context.settings)
      (Run.counted server plan.options)
  | .aggregate context plan aggregates =>
    let plan := plan.aggregate aggregates
    let (report, _) := Compiler.compile { context, plan } { limits := false }
    Result.single <$> Run.compiled report (Run.firstRow server plan.options)
  | .insert context insertion returning =>
    Result.rows <$> Run.insert server context insertion returning

/-- What was said once an operation has run and its result has been given up. -/
def history (server : Server) (batches : Nat) (op : Operation) (h : History) : History :=
  match op.run server h with
  | (.ok result, k) => result.giveUp server batches k
  | (.error _, k) => k

end Operation

end PathQuery
