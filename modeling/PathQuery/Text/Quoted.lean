import PathQuery.Text.Unseen
import PathQuery.Text.Word
/-!
# Text quoted in messages

Messages show the texts they speak of between double quotes, so that a blank, a line break or an
invisible character in them can be seen. A character that cannot be seen is shown by its code in
hexadecimal; letters of every script and symbols stay.
-/

namespace PathQuery.Text

/-- One character as it is shown between the quotes. -/
def shownChar (c : Char) : List Char :=
  if c == '"' then ['\\', '"']
  else if c == '\\' then ['\\', '\\']
  else if c == '\n' then ['\\', 'n']
  else if c == '\r' then ['\\', 'r']
  else if c == '\t' then ['\\', 't']
  else if c.toNat == 0 then ['\\', '0']
  else if isUnseen c then "\\u\x7b".toList ++ Nat.toDigits 16 c.toNat ++ "\x7d".toList
  else [c]

/-- A text between double quotes, its unseen characters spelled out. -/
def quoted (text : String) : String :=
  "\"" ++ String.ofList (text.toList.flatMap shownChar) ++ "\""

/-- A list of texts, each quoted, between square brackets. -/
def quotedList (texts : List String) : String :=
  "[" ++ joinWith ", " (texts.map quoted) ++ "]"

end PathQuery.Text
