import PathQuery.Decimal.Numeral
/-!
# Counts in settings

Settings given as text have counts in decimal, with an optional plus sign and nothing else around the
digits. The first character that does not fit decides which error is reported.
-/

namespace PathQuery

inductive NumberError
  | empty
  | invalidDigit
  | tooLarge
  deriving DecidableEq, Repr

def NumberError.message : NumberError → String
  | .empty => "cannot parse integer from empty string"
  | .invalidDigit => "invalid digit found in string"
  | .tooLarge => "number too large to fit in target type"

/-- Reads digits on from `n`, up to `bound` at most. -/
def countFrom (bound n : Nat) : List Char → Except NumberError Nat
  | [] => .ok n
  | c :: rest =>
    match Decimal.digit? c with
    | none => .error .invalidDigit
    | some d => if bound < 10 * n + d then .error .tooLarge else countFrom bound (10 * n + d) rest

/-- Reads a count of at most `bound`. A sign alone is no digit. -/
def readCount (bound : Nat) (text : String) : Except NumberError Nat :=
  match text.toList with
  | [] => .error .empty
  | ['+'] => .error .invalidDigit
  | '+' :: digits => countFrom bound 0 digits
  | digits => countFrom bound 0 digits

end PathQuery
