import PathQuery.Dict
/-!
# Relationship trees

The joins of a query form a tree whose root is the one table that is named after FROM. Every alias has a
path: the names of the relationships that lead to it from the root, joined by dots. The root has the
empty path.
-/

namespace PathQuery

structure Tree where
  root : Option String := none
  /-- The path of each alias, relative to the root. -/
  paths : Dict String := .empty
  /-- The table of each alias. -/
  tables : Dict String := .empty
  deriving Inhabited

namespace Tree

def isEmpty (t : Tree) : Bool :=
  t.paths.isEmpty

def size (t : Tree) : Nat :=
  t.paths.size

def names (t : Tree) : List String :=
  t.paths.keys

def isRoot (t : Tree) (name : String) : Bool :=
  t.root == some name

def path? (t : Tree) (name : String) : Option String :=
  t.paths.get? name

def table? (t : Tree) (name : String) : Option String :=
  t.tables.get? name

def rootTable? (t : Tree) : Option String :=
  t.root.bind t.table?

/-- A path that starts with the root's table. -/
def qualify (rootTable path : String) : String :=
  if path = "" then rootTable else rootTable ++ "." ++ path

/-- The path of an alias, starting with the root's table. -/
def qualifiedPath? (t : Tree) (name : String) : Option String := do
  let path ← t.path? name
  let rootTable ← t.rootTable?
  return qualify rootTable path

/-- Whether a qualifier is the path of some alias, with or without the root's table. -/
def isPath (t : Tree) (qualifier : String) : Bool :=
  t.names.any fun name =>
    t.path? name == some qualifier || t.qualifiedPath? name == some qualifier

end Tree

end PathQuery
