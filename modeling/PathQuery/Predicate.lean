import PathQuery.Condition
import PathQuery.Like
import PathQuery.Naming
/-!
# Predicates

The text of a lookup: the column, a comparison, and a placeholder for each value. A lookup whose value
does not fit its kind is an error. A membership in no values at all holds of nothing, which is known
without any text.
-/

namespace PathQuery

/-- The value that a kind of lookup takes. -/
inductive Expected
  | boolean
  | text
  | list
  | single
  deriving DecidableEq, Repr

def Expected.phrase : Expected → String
  | .boolean => "a boolean"
  | .text => "a text value"
  | .list => "a list of values"
  | .single => "a single value"

def LookupKind.name : LookupKind → String
  | .exact => "Exact"
  | .gt => "Gt"
  | .gte => "Gte"
  | .lt => "Lt"
  | .lte => "Lte"
  | .contains => "Contains"
  | .startsWith => "StartsWith"
  | .endsWith => "EndsWith"
  | .oneOf => "In"
  | .isNull => "IsNull"

inductive FilterError
  | invalidOperand (lhs : String) (kind : LookupKind) (expected : Expected)
  | naming (e : NamingError)
  deriving DecidableEq, Repr

def FilterError.message : FilterError → String
  | .invalidOperand lhs kind expected =>
    "Lookup " ++ kind.name ++ " on '" ++ lhs ++ "' expects " ++ expected.phrase
  | .naming e => e.message

/-- What a condition comes to: text, or one of the constants. Text is `resolved` when its columns are
named by path already. -/
inductive Outcome
  | sql (sql : Sql) (resolved : Bool)
  | everything
  | nothing

namespace Lookup

/-- The operator of a comparison with a single value. -/
def operator? : LookupKind → Option String
  | .exact => some "="
  | .gt => some ">"
  | .gte => some ">="
  | .lt => some "<"
  | .lte => some "<="
  | _ => none

/-- The pattern for a text that has to occur somewhere, at the start or at the end. -/
def pattern? (text : String) : LookupKind → Option String
  | .contains => some ("%" ++ Like.escape text ++ "%")
  | .startsWith => some (Like.escape text ++ "%")
  | .endsWith => some ("%" ++ Like.escape text)
  | _ => none

/-- The predicate of a lookup, its column still qualified by alias. -/
def predicate (l : Lookup) : Except FilterError Outcome :=
  let lhs := l.lhs.render
  let invalid (expected : Expected) : Except FilterError Outcome :=
    .error (.invalidOperand lhs.text l.kind expected)
  let holds (tail : String) (values : List Value) : Except FilterError Outcome :=
    .ok (.sql ⟨lhs.text ++ " " ++ tail, lhs.params ++ values⟩ false)
  match l.kind, l.rhs with
  | .exact, .single .null => holds "= null" []
  | .isNull, .single (.bool isNull) => holds (if isNull then "= null" else "!= null") []
  | .isNull, _ => invalid .boolean
  | .oneOf, .list [] => .ok .nothing
  | .oneOf, .list values => holds ("IN (" ++ Sql.placeholders values.length ++ ")") values
  | .oneOf, .single _ => invalid .list
  | kind, rhs =>
    match operator? kind, rhs with
    | some operator, .single value => holds (operator ++ " %s") [value]
    | some _, .list _ => invalid .single
    | none, .single (.text text) =>
      match pattern? text kind with
      | some pattern => holds "LIKE %s" [.text pattern]
      | none => invalid .text
    | none, _ => invalid .text

end Lookup

end PathQuery
