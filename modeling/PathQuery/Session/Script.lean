import PathQuery.Session.Server
/-!
# Scripted servers

A server that follows a script: it has a list of rows, which every cursor hands out from the first on,
and a list of failures, each for one call. Calls are counted by kind over the whole history. A fetch that
fails does not move the cursor, and closing has no effect on reading.
-/

namespace PathQuery

/-- The calls that can fail. -/
inductive Fallible
  | cursor
  | execute
  | fetchOne
  | fetchMany
  | lastInsertId
  deriving DecidableEq, Repr

structure Script where
  rows : List Row := []
  affected : Int := 0
  lastInsertId : Option Value := none
  /-- Kinds of calls with the number of the call that fails, from 0, and the message. -/
  failures : List (Fallible × Nat × String) := []

def Call.fallible? : Call → Option Fallible
  | .cursor => some .cursor
  | .on _ (.execute _) => some .execute
  | .on _ .fetchOne => some .fetchOne
  | .on _ (.fetchMany _) => some .fetchMany
  | .on _ .lastInsertId => some .lastInsertId
  | _ => none

namespace Script

/-- The message of a call's failure, if it fails after this history. -/
def failure? (s : Script) (kind : Fallible) (h : History) : Option String :=
  let count := h.countP fun call => call.fallible? == some kind
  (s.failures.find? fun (k, n, _) => k = kind ∧ n = count).map fun (_, _, message) => message

/-- The answer of a call, unless it fails. -/
def unlessFailing {α : Type} (s : Script) (kind : Fallible) (h : History) (answer : α) :
    Except String α :=
  match s.failure? kind h with
  | some message => .error message
  | none => .ok answer

/-- The number of rows that a cursor has handed out, by the calls of a history in reverse. -/
def positionAfter (s : Script) (c : Nat) : History → Nat
  | [] => 0
  | call :: earlier =>
    let position := positionAfter s c earlier
    match call with
    | .on d .fetchOne =>
      if d = c ∧ (s.failure? .fetchOne earlier.reverse).isNone then
        min (position + 1) s.rows.length
      else position
    | .on d (.fetchMany n) =>
      if d = c ∧ (s.failure? .fetchMany earlier.reverse).isNone then
        min (position + n) s.rows.length
      else position
    | _ => position

def position (s : Script) (c : Nat) (h : History) : Nat :=
  s.positionAfter c h.reverse

def rowsLeft (s : Script) (c : Nat) (h : History) : Nat :=
  s.rows.length - s.position c h

def fetchOne (s : Script) (c : Nat) (h : History) : Except String (Option Row) :=
  s.unlessFailing .fetchOne h s.rows[s.position c h]?

def fetchMany (s : Script) (c n : Nat) (h : History) : Except String (List Row) :=
  s.unlessFailing .fetchMany h ((s.rows.drop (s.position c h)).take n)

theorem unlessFailing_eq_ok {α : Type} {s : Script} {kind : Fallible} {h : History} {answer a : α}
    (hok : s.unlessFailing kind h answer = .ok a) : s.failure? kind h = none ∧ answer = a := by
  unfold unlessFailing at hok
  split at hok
  · cases hok
  · cases hok
    exact ⟨‹_›, rfl⟩

theorem fetchOne_lt {s : Script} {c : Nat} {h : History} {row : Row}
    (hok : s.fetchOne c h = .ok (some row)) :
    s.rowsLeft c (h ++ [.on c .fetchOne]) < s.rowsLeft c h := by
  obtain ⟨hfail, hrow⟩ := unlessFailing_eq_ok hok
  have hlt : s.position c h < s.rows.length := (List.getElem?_eq_some_iff.1 hrow).1
  have hnext : s.position c (h ++ [.on c .fetchOne]) =
      min (s.position c h + 1) s.rows.length := by
    simp [position, positionAfter, hfail]
  simp only [rowsLeft, hnext]
  omega

theorem fetchMany_lt {s : Script} {c n : Nat} {h : History} {row : Row} {rows : List Row}
    (hok : s.fetchMany c n h = .ok (row :: rows)) :
    s.rowsLeft c (h ++ [.on c (.fetchMany n)]) < s.rowsLeft c h := by
  obtain ⟨hfail, hrows⟩ := unlessFailing_eq_ok hok
  have hlength := congrArg List.length hrows
  simp only [List.length_take, List.length_drop, List.length_cons] at hlength
  have hnext : s.position c (h ++ [.on c (.fetchMany n)]) =
      min (s.position c h + n) s.rows.length := by
    simp [position, positionAfter, hfail]
  simp only [rowsLeft, hnext]
  omega

def server (s : Script) : Server where
  cursor h := s.unlessFailing .cursor h ()
  execute _ _ h := s.unlessFailing .execute h ()
  fetchOne := s.fetchOne
  fetchMany := s.fetchMany
  rowCount _ _ := s.affected
  lastInsertId _ h := s.unlessFailing .lastInsertId h s.lastInsertId
  rowsLeft := s.rowsLeft
  fetchOne_lt _ _ _ := fetchOne_lt
  fetchMany_lt _ _ _ _ _ := fetchMany_lt

end Script

end PathQuery
