import PathQuery.Text.Quoted
/-!
# Why joins are no relationship tree

Each way in which a list of joins fails to be a tree of relationships, and its message.
-/

namespace PathQuery

inductive RelationError
  | missingColumns (name : String)
  | severalColumns (name : String) (count : Nat)
  | keyToKey (name : String)
  | notToKey (name parentColumn ownColumn : String)
  | duplicateName (name : String)
  | unknownName (name : String)
  | rootCount (roots : List String)
  | notATree (name : String)
  | disconnected (names : List String)
  | unrecognizedKey (column : String)
  deriving DecidableEq, Repr

def RelationError.message : RelationError → String
  | .missingColumns name => "Join to alias '" ++ name ++ "' has no join columns"
  | .severalColumns name count =>
    "Join to alias '" ++ name ++ "' uses " ++ toString count ++
      " column pairs; only single-key relationships are supported"
  | .keyToKey name => "Join to alias '" ++ name ++ "' joins the primary key 'Id' to itself"
  | .notToKey name parentColumn ownColumn =>
    "Join to alias '" ++ name ++ "' is not a foreign key to 'Id' (" ++ parentColumn ++ " = " ++
      ownColumn ++ ")"
  | .duplicateName name => "Alias '" ++ name ++ "' is defined more than once"
  | .unknownName name => "Alias '" ++ name ++ "' is used by a join but never defined"
  | .rootCount roots =>
    "Query is not expressible as a single relationship tree: found " ++ toString roots.length ++
      " root aliases " ++ Text.quotedList roots ++ ". Rewrite it as a subquery."
  | .notATree name => "Alias '" ++ name ++ "' is reachable by more than one relationship path"
  | .disconnected names =>
    "Aliases " ++ Text.quotedList names ++ " are not connected to the root alias"
  | .unrecognizedKey column =>
    "Cannot derive a relationship name from foreign key column '" ++ column ++ "'"

end PathQuery
