/-!
# Sort directions

The words that follow a sort key: the direction, and the place of nulls where it matters.
-/

namespace PathQuery

inductive NullsPlace
  | first
  | last
  deriving DecidableEq, Inhabited, Repr

def NullsPlace.text : NullsPlace → String
  | .first => "FIRST"
  | .last => "LAST"

def sortText (descending : Bool) (nulls : Option NullsPlace) : String :=
  (if descending then "DESC" else "ASC") ++ nulls.elim "" fun place => " NULLS " ++ place.text

end PathQuery
