import PathQuery.Decimal.Layout
import PathQuery.Json.Basic
import PathQuery.Text.Word
/-!
# Writing JSON

Two forms of the same value: `compact`, without blanks, and `pretty`, with one item to a line and two
blanks for each level of nesting.
-/

namespace PathQuery.Json

/-- Doubles always look like doubles: they have a point or a power of ten. -/
def floatLayout : Decimal.Layout :=
  ⟨some (-5, 16), true, .toEven⟩

/-- Quotation mark, backslash and the control characters have to be escaped; nothing else is. -/
def escapedChar (c : Char) : List Char :=
  if c == '"' then ['\\', '"']
  else if c == '\\' then ['\\', '\\']
  else if c.toNat == 0x08 then ['\\', 'b']
  else if c.toNat == 0x09 then ['\\', 't']
  else if c.toNat == 0x0A then ['\\', 'n']
  else if c.toNat == 0x0C then ['\\', 'f']
  else if c.toNat == 0x0D then ['\\', 'r']
  else if c.toNat < 0x10 then "\\u000".toList ++ Nat.toDigits 16 c.toNat
  else if c.toNat < 0x20 then "\\u00".toList ++ Nat.toDigits 16 c.toNat
  else [c]

def string (s : String) : String :=
  "\"" ++ String.ofList (s.toList.flatMap escapedChar) ++ "\""

/-- Numbers without a decimal form are written as null. -/
def Number.render : Number → String
  | .int n => toString n
  | .float x => if x.isFinite then floatLayout.render x else "null"

/-- Lists and objects with the parts between the brackets separated by commas only. -/
def compact : Json → String
  | .null => "null"
  | .bool b => if b then "true" else "false"
  | .number n => n.render
  | .text s => string s
  | .list items => "[" ++ Text.joinWith "," (items.attach.map fun ⟨item, _⟩ => item.compact) ++ "]"
  | .object members =>
    "\x7b" ++ Text.joinWith "," (members.attach.map fun ⟨(key, value), _⟩ =>
      string key ++ ":" ++ value.compact) ++ "\x7d"
  | .unreadable => "null"
termination_by j => sizeOf j
decreasing_by
  · have := List.sizeOf_lt_of_mem ‹_›
    simp; omega
  · rename_i hmem
    have := List.sizeOf_lt_of_mem hmem
    simp at this ⊢; omega

/-- The line break and the blanks before an item at a level of nesting. -/
def newLine (level : Nat) : String :=
  "\n" ++ String.ofList (List.replicate (2 * level) ' ')

/-- Parts between two brackets, each on a line of its own; no parts leave the brackets together. -/
def bracketed (level : Nat) (opening closing : String) (parts : List String) : String :=
  if parts.isEmpty then opening ++ closing
  else opening ++ newLine (level + 1) ++ Text.joinWith ("," ++ newLine (level + 1)) parts ++
    newLine level ++ closing

def prettyAt (level : Nat) : Json → String
  | .list items =>
    bracketed level "[" "]" (items.attach.map fun ⟨item, _⟩ => item.prettyAt (level + 1))
  | .object members =>
    bracketed level "\x7b" "\x7d" (members.attach.map fun ⟨(key, value), _⟩ =>
      string key ++ ": " ++ value.prettyAt (level + 1))
  | other => other.compact
termination_by j => sizeOf j
decreasing_by
  · have := List.sizeOf_lt_of_mem ‹_›
    simp; omega
  · rename_i hmem
    have := List.sizeOf_lt_of_mem hmem
    simp at this ⊢; omega

def pretty (j : Json) : String :=
  j.prettyAt 0

end PathQuery.Json
