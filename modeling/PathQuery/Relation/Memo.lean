import PathQuery.Digest.Sha256
import PathQuery.Relation.Resolve
/-!
# Remembered trees

Resolving the same joins again is avoided by keeping the trees that were found, each under a digest of
its joins. Failures are not kept. The memo also counts how often it could answer and how often not.
-/

namespace PathQuery

structure Memo where
  entries : List (String × Tree) := []
  hits : UInt64 := 0
  misses : UInt64 := 0
  deriving Inhabited

namespace Memo

/-- Ends a field of a join. -/
def fieldMark : String := "\x1f"

/-- Ends a join. -/
def joinMark : String := "\x1e"

def columnText (pair : String × String) : String :=
  pair.1 ++ "=" ++ pair.2 ++ ","

/-- One join as the text that enters the digest. -/
def joinText (j : Join) : String :=
  j.parent.getD "" ++ fieldMark ++ j.table ++ fieldMark ++
    Text.joinWith "" (j.columns.map columnText) ++ fieldMark ++ j.name ++ joinMark

/-- A list of joins as the text that enters the digest. -/
def keyText (joins : List Join) : String :=
  Text.joinWith "" (joins.map joinText)

/-- The key of a list of joins. -/
def key (joins : List Join) : String :=
  Sha256.hex (keyText joins)

def size (m : Memo) : Nat :=
  m.entries.length

def isEmpty (m : Memo) : Bool :=
  m.entries.isEmpty

/-- The tree that is kept for these joins, or else the one that is found now, which is then kept. -/
def resolve (m : Memo) (joins : List Join) : Except RelationError Tree × Memo :=
  match m.entries.lookup (key joins) with
  | some tree => (.ok tree, { m with hits := m.hits + 1 })
  | none =>
    let m := { m with misses := m.misses + 1 }
    match Tree.resolve joins with
    | .error e => (.error e, m)
    | .ok tree => (.ok tree, { m with entries := m.entries ++ [(key joins, tree)] })

end Memo

end PathQuery
