import PathQuery.Decimal.Layout
import PathQuery.Json.Decode
import PathQuery.Text.Word
/-!
# Values

The values that a query binds to its placeholders and that a result set holds: null, booleans, 64-bit
integers, doubles and texts.
-/

namespace PathQuery

inductive Value
  | null
  | bool (b : Bool)
  | integer (i : Int64)
  | float (x : Float)
  | text (s : String)

/-- A row of a result set. -/
abbrev Row := List Value

namespace Value

instance : Inhabited Value :=
  ⟨.null⟩

/-- Doubles are shown with all their digits and without a power of ten. -/
def floatLayout : Decimal.Layout :=
  ⟨none, false, .up⟩

/-- The apostrophe, which encloses the texts that are shown. -/
def apostrophe : Char := Char.ofNat 39

/-- A text between apostrophes; those inside are preceded by a backslash. -/
def quotedText (s : String) : String :=
  let mark := String.singleton apostrophe
  mark ++ Text.replaceChars (fun c => if c = apostrophe then some ['\\', c] else none) s ++ mark

/-- The text of a value in a listing of parameters. -/
def display : Value → String
  | .null => "null"
  | .bool b => if b then "true" else "false"
  | .integer i => toString i.toInt
  | .float x =>
    if x.isFinite then floatLayout.render x
    else if x.isNaN then "NaN"
    else if x < 0 then "-inf" else "inf"
  | .text s => quotedText s

/-- Numbers without a JSON form become null. -/
def toJson : Value → Json
  | .null => .null
  | .bool b => .bool b
  | .integer i => .number (.int i.toInt)
  | .float x => if x.isFinite then .number (.float x) else .null
  | .text s => .text s

/-- An integer beyond 64 bits with a sign is taken as a double. -/
def ofInt (n : Int) : Value :=
  if Int64.minValue.toInt ≤ n ∧ n ≤ Int64.maxValue.toInt then .integer (.ofInt n) else .float n.toNat.toUInt64.toFloat

/-- Lists and objects are no values. -/
def ofJson? : Json → Option Value
  | .null => some .null
  | .bool b => some (.bool b)
  | .number (.int n) => some (ofInt n)
  | .number (.float x) => some (.float x)
  | .text s => some (.text s)
  | _ => none

end Value

end PathQuery
