/-!
# Words and joined text

Names of tables, columns and relationships are *words*: runs of ASCII letters, digits and underscores.
This module has the class of their characters and the few operations on text that the rest of the
project is built from: joining parts by a separator, cutting a known head or end off a text, and
removing every occurrence of a text from another.

The operations are given on lists of characters, where their laws are stated, and lifted to strings.
-/

namespace PathQuery.Text

/-- Letters, digits and the underscore, of ASCII only: no other character may stand in a word. -/
def isWordChar (c : Char) : Bool :=
  c.isAlphanum || c == '_'

/-- The parts in order, with the separator between each two of them. -/
def joinWith (separator : String) : List String → String
  | [] => ""
  | [part] => part
  | part :: next :: rest => part ++ separator ++ joinWith separator (next :: rest)

/-- What follows `head` in a text that starts with it. -/
def afterHead? (head text : String) : Option String :=
  (head.toList.isPrefixOf? text.toList).map String.ofList

/-- What precedes `ending` in a text that ends with it. -/
def beforeEnd? (ending text : String) : Option String :=
  (ending.toList.isSuffixOf? text.toList).map String.ofList

/-- Whether the last character of a text is `c`. -/
def endsWithChar (c : Char) (text : String) : Bool :=
  text.toList.getLast? == some c

/-- The same piece of text, `n` times. -/
def repeated (n : Nat) (piece : String) : List String :=
  List.replicate n piece

/-- Removes the occurrences of `gone`, found from left to right and without overlap. An empty `gone`
occurs nowhere. -/
def eraseChars (gone : List Char) : List Char → List Char
  | [] => []
  | c :: rest =>
    match gone.isPrefixOf? (c :: rest) with
    | some after =>
      if _ : after.length < (c :: rest).length then eraseChars gone after
      else c :: eraseChars gone rest
    | none => c :: eraseChars gone rest
termination_by text => text.length
decreasing_by
  · assumption
  · exact Nat.lt_succ_self _
  · exact Nat.lt_succ_self _

/-- Removes every occurrence of one text from another. -/
def eraseAll (gone text : String) : String :=
  String.ofList (eraseChars gone.toList text.toList)

/-- Writes `fresh` for every character that `hit` picks out, and the others unchanged. -/
def replaceChars (hit : Char → Option (List Char)) (text : String) : String :=
  String.ofList (text.toList.flatMap fun c => (hit c).getD [c])

end PathQuery.Text
