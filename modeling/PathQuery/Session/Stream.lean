import PathQuery.Session.Server
/-!
# Streams of rows

Rows of a result, fetched batch by batch as they are asked for. The cursor is closed at the first empty
batch, at the first failure, or when the stream is given up, whichever comes first.
-/

namespace PathQuery

structure Stream where
  cursor : Nat
  chunkSize : Nat
  done : Bool := false
  deriving DecidableEq, Repr

namespace Stream

/-- Ends the stream, if it has not ended yet. -/
def finish (s : Stream) (h : History) : Stream × History :=
  if s.done then (s, h) else ({ s with done := true }, h ++ [.on s.cursor .close])

/-- One outcome of a stream: a batch of rows, a failure, or the end. -/
abbrev Batch := Option (Except StatementError (List Row))

/-- The next batch. -/
def next (server : Server) (s : Stream) (h : History) : Batch × Stream × History :=
  if s.done then (none, s, h)
  else
    let after := h ++ [.on s.cursor (.fetchMany s.chunkSize)]
    match server.fetchMany s.cursor s.chunkSize h with
    | .error e => (some (.error (.database e)), s.finish after)
    | .ok [] => (none, s.finish after)
    | .ok (row :: rows) => (some (.ok (row :: rows)), s, after)

theorem next_lt {server : Server} {s t : Stream} {h k : History} {rows : List Row}
    (hnext : s.next server h = (some (.ok rows), t, k)) :
    server.rowsLeft t.cursor k < server.rowsLeft s.cursor h := by
  unfold next at hnext
  split at hnext
  · simp at hnext
  · simp only at hnext
    split at hnext
    · simp at hnext
    · simp at hnext
    · rename_i hfetch
      simp only [Prod.mk.injEq] at hnext
      obtain ⟨_, rfl, rfl⟩ := hnext
      exact server.fetchMany_lt _ _ _ _ _ hfetch

/-- All rows that are left, or the failure that ends them. -/
def drain (server : Server) (s : Stream) (h : History) :
    Except StatementError (List Row) × History :=
  match _ : s.next server h with
  | (none, t, k) => (.ok [], (t.finish k).2)
  | (some (.error e), t, k) => (.error e, (t.finish k).2)
  | (some (.ok rows), t, k) =>
    let (rest, last) := drain server t k
    (rest.map (rows ++ ·), last)
termination_by server.rowsLeft s.cursor h
decreasing_by exact next_lt ‹_›

end Stream

end PathQuery
