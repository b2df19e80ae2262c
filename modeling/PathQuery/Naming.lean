import PathQuery.Expr
import PathQuery.Fragment
import PathQuery.Relation.Link
import PathQuery.Relation.Tree
import PathQuery.Report
/-!
# Renaming columns

A plan names columns by alias, as in `A.Name`; a query names them by relationship path, as in
`Contact.Account.Name`. Renaming a fragment replaces the alias by its qualifier and leaves everything
else as it is. The qualifier is the path of the alias, and starts with the root's table unless the table
is one of those that want it left out.

A fragment that is qualified by a path already is left alone, and so are sub-selects and row counts. Any
other fragment is left alone too, with a warning, or is an error for a strict naming.
-/

namespace PathQuery

inductive NamingError
  | unexpected (fragment : String) (reason : Reason)
  | outsideRoot (name path root : String)
  deriving DecidableEq, Repr

def NamingError.message : NamingError → String
  | .unexpected fragment reason =>
    "Cannot rewrite unexpected fragment " ++ Text.quoted fragment ++ ": " ++ reason.text
  | .outsideRoot name path root =>
    "Path '" ++ path ++ "' of alias '" ++ name ++ "' does not start with the root path '" ++ root ++
      "'"

structure Naming where
  tree : Tree
  /-- Leave out the root's table everywhere. -/
  minimal : Bool := false
  /-- Tables, or aliases, for which the root's table is left out. -/
  minimalTables : List String := []
  /-- Fail where otherwise a warning is given. -/
  strict : Bool := false

namespace Naming

/-- The last word of a field that tells the kind of row a reference leads to, as in `Owner.Type`. -/
def discriminator : String := "Type"

/-- A row count, with or without a label. -/
def isCountAll (fragment : String) : Bool :=
  match Text.afterHead? Expr.countAllText fragment with
  | none => false
  | some rest =>
    match rest.toList with
    | [] => true
    | c :: label => c == ' ' && !label.isEmpty && label.all Text.isWordChar

/-- A path of an alias and a field, where the field may carry a discriminator. -/
def split? (n : Naming) (path : List String) : Option (String × String) :=
  match path with
  | [name, field] => if (n.tree.path? name).isSome then some (name, field) else none
  | [name, field, last] =>
    if last = discriminator ∧ (n.tree.path? name).isSome then some (name, field ++ "." ++ last)
    else none
  | _ => none

/-- Whether the root's table is left out of the qualifier of an alias. -/
def isMinimal (n : Naming) (name : String) : Bool :=
  n.minimal || n.minimalTables.any fun table => table == name || some table == n.tree.table? name

/-- A bare field, or a field whose qualifier is a path. The field may carry a discriminator, and a bare
one does so only where the root's table is left out. -/
def isResolved (n : Naming) (path : List String) : Bool :=
  match path.reverse with
  | [] => false
  | [_] => true
  | [last, field] =>
    n.tree.isPath field || (last == discriminator && n.tree.root.any n.isMinimal)
  | last :: field :: qualifier =>
    n.tree.isPath (Text.joinWith "." (qualifier.reverse ++ [field])) ||
      (last == discriminator && n.tree.isPath (Text.joinWith "." qualifier.reverse))

/-- What replaces an alias. -/
def qualifier (n : Naming) (name : String) : Except NamingError String :=
  let full := (n.tree.qualifiedPath? name).getD name
  if !n.isMinimal name then .ok full
  else if n.tree.isRoot name then .ok ""
  else
    let root := (n.tree.root.bind n.tree.qualifiedPath?).getD ""
    match (Text.afterHead? root full).bind (Text.afterHead? ".") with
    | some path => .ok path
    | none => .error (.outsideRoot name full root)

/-- A fragment that is not understood stays as it is. -/
def unexpected (n : Naming) (fragment : String) (reason : Reason) : Report NamingError String :=
  if n.strict then .fail (.unexpected fragment reason)
  else ⟨[⟨fragment, reason⟩], .ok fragment⟩

/-- A field behind its qualifier. -/
def qualified (qualifier field : String) : String :=
  if qualifier = "" then field else qualifier ++ "." ++ field

/-- The fragment with its alias replaced. -/
def rename (n : Naming) (fragment : String) : Report NamingError String :=
  if fragment.toList.head? = some '(' ∨ isCountAll fragment then pure fragment
  else
    match Fragment.parse? fragment with
    | none => n.unexpected fragment .notAColumn
    | some f =>
      match n.split? f.path with
      | some (name, field) =>
        .ofExcept ((n.qualifier name).map fun q => f.head ++ qualified q field ++ f.ending)
      | none => if n.isResolved f.path then pure fragment else n.unexpected fragment .notOneField

end Naming

end PathQuery
