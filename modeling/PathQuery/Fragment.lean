import PathQuery.Sorting
import PathQuery.Sql
/-!
# Fragments

A fragment is query text about a single column: a dotted path of words, inside any number of function
calls, and followed by at most one tail.

```text
fragment := { word "(" } word { "." word } { ")" } [ " " tail ]
tail     := [ "NOT " ] "IN (" rest
          | [ "!" ] "= null"
          | "LIKE %s"
          | ( "ASC" | "DESC" ) [ " NULLS " ( "FIRST" | "LAST" ) ]
          | op " %s"            op := one or more of ! < > =
          | word                (a label for the column)
```

The number of closing parentheses need not be the number of calls. Reading loses nothing: the parts of a
fragment spell the text it was read from.
-/

namespace PathQuery

inductive Tail
  | label (name : String)
  | comparison (operator : String)
  | like
  | nullCheck (negated : Bool)
  | oneOf (negated : Bool) (items : String)
  | ordering (descending : Bool) (nulls : Option NullsPlace)
  deriving DecidableEq, Repr

/-- The text of a tail, without the blank before it. -/
def Tail.text : Tail → String
  | .label name => name
  | .comparison operator => operator ++ " %s"
  | .like => "LIKE %s"
  | .nullCheck negated => if negated then "!= null" else "= null"
  | .oneOf negated items => (if negated then "NOT IN (" else "IN (") ++ items
  | .ordering descending nulls => sortText descending nulls

structure Fragment where
  functions : List String
  path : List String
  closings : Nat
  tail : Option Tail
  deriving DecidableEq, Repr

namespace Fragment

/-- What precedes the path: the calls, each with its opening parenthesis. -/
def head (f : Fragment) : String :=
  Text.joinWith "" (f.functions.map (· ++ "("))

/-- What follows the path. -/
def ending (f : Fragment) : String :=
  String.ofList (List.replicate f.closings ')') ++ f.tail.elim "" (" " ++ ·.text)

def text (f : Fragment) : String :=
  f.head ++ Text.joinWith "." f.path ++ f.ending

/-! ### Reading -/

/-- The word at the start of a text, which may be empty. -/
def word (cs : List Char) : List Char :=
  cs.takeWhile Text.isWordChar

/-- What follows the word at the start of a text. -/
def afterWord (cs : List Char) : List Char :=
  cs.dropWhile Text.isWordChar

theorem length_afterWord_le (cs : List Char) : (afterWord cs).length ≤ cs.length :=
  (List.dropWhile_suffix Text.isWordChar).length_le

theorem length_lt_of_afterWord {cs rest : List Char} {c : Char} (h : afterWord cs = c :: rest) :
    rest.length < cs.length := by
  have := length_afterWord_le cs
  rw [h] at this
  exact this

/-- The calls at the start of a text, and what follows them. -/
def readFunctions (cs : List Char) : List String × List Char :=
  match _ : afterWord cs with
  | '(' :: rest =>
    if word cs = [] then ([], cs)
    else
      let (functions, after) := readFunctions rest
      (String.ofList (word cs) :: functions, after)
  | _ => ([], cs)
termination_by cs.length
decreasing_by exact length_lt_of_afterWord ‹_›

/-- The dotted path at the start of a text, and what follows it. A dot that no word follows is not part
of the path. -/
def readPath? (cs : List Char) : Option (List String × List Char) :=
  if word cs = [] then none
  else
    match _ : afterWord cs with
    | '.' :: rest =>
      match readPath? rest with
      | some (path, after) => some (String.ofList (word cs) :: path, after)
      | none => some ([String.ofList (word cs)], '.' :: rest)
    | after => some ([String.ofList (word cs)], after)
termination_by cs.length
decreasing_by exact length_lt_of_afterWord ‹_›

/-- The tails whose text is fixed. -/
def fixedTails : List Tail :=
  [.nullCheck false, .nullCheck true, .like] ++
    [none, some .first, some .last].flatMap fun nulls =>
      [.ordering false nulls, .ordering true nulls]

def isOperatorChar (c : Char) : Bool :=
  c == '!' || c == '<' || c == '>' || c == '='

def readOneOf? (negated : Bool) (cs : List Char) : Option Tail :=
  ((Tail.oneOf negated "").text.toList.isPrefixOf? cs).map fun items =>
    .oneOf negated (String.ofList items)

def readFixed? (cs : List Char) : Option Tail :=
  fixedTails.find? fun tail => tail.text.toList == cs

def readComparison? (cs : List Char) : Option Tail :=
  let operator := cs.takeWhile isOperatorChar
  if operator ≠ [] ∧ cs.dropWhile isOperatorChar = " %s".toList then
    some (.comparison (String.ofList operator))
  else none

def readLabel? (cs : List Char) : Option Tail :=
  if cs ≠ [] ∧ afterWord cs = [] then some (.label (String.ofList cs)) else none

/-- The tail that a text spells. `ASC` and `DESC` are directions, not labels. -/
def readTail? (cs : List Char) : Option Tail :=
  readOneOf? false cs <|> readOneOf? true cs <|> readFixed? cs <|> readComparison? cs <|>
    readLabel? cs

/-- The fragment that a text spells. -/
def parse? (s : String) : Option Fragment :=
  let (functions, cs) := readFunctions s.toList
  match readPath? cs with
  | none => none
  | some (path, cs) =>
    let closings := (cs.takeWhile (· == ')')).length
    match cs.dropWhile (· == ')') with
    | [] => some ⟨functions, path, closings, none⟩
    | ' ' :: rest => (readTail? rest).map fun tail => ⟨functions, path, closings, some tail⟩
    | _ => none

end Fragment

end PathQuery
