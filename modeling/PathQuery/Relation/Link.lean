import PathQuery.Join
import PathQuery.Relation.Error
import PathQuery.Text.Word
/-!
# Links

Every join that a query may use equates a foreign key of one table with the primary key of another. A
`Link` is such a join with its direction made plain: `top` holds the foreign key and `bottom` is the
row it refers to, whichever of the two was joined to the other.

The relationship behind a link has a name, which is derived from the foreign key.
-/

namespace PathQuery

/-- The primary key of every table. -/
def primaryKey : String := "Id"

structure Link where
  top : String
  key : String
  bottom : String
  deriving DecidableEq, Repr

/-- A foreign key `X__c` gives the name `X__r`, any other `XId` the name `X`; the stem `X` may not be
empty. -/
def relationshipName (key : String) : Except RelationError String :=
  match Text.beforeEnd? "__c" key with
  | some stem => if stem ≠ "" then .ok (stem ++ "__r") else .error (.unrecognizedKey key)
  | none =>
    match Text.beforeEnd? primaryKey key with
    | some stem => if stem ≠ "" then .ok stem else .error (.unrecognizedKey key)
    | none => .error (.unrecognizedKey key)

/-- The link of a join; a table that stands alone has none. -/
def Join.link? (j : Join) : Except RelationError (Option Link) :=
  match j.parent, j.columns with
  | none, _ => .ok none
  | some _, [] => .error (.missingColumns j.name)
  | some parent, [(parentColumn, ownColumn)] =>
    if parentColumn = primaryKey then
      if ownColumn = primaryKey then .error (.keyToKey j.name)
      else .ok (some ⟨j.name, ownColumn, parent⟩)
    else if ownColumn = primaryKey then .ok (some ⟨parent, parentColumn, j.name⟩)
    else .error (.notToKey j.name parentColumn ownColumn)
  | some _, columns@(_ :: _ :: _) => .error (.severalColumns j.name columns.length)

end PathQuery
