import PathQuery.Decimal.Numeral
import PathQuery.Json.Basic
/-!
# Tokens of a JSON text

The text is read one character at a time. Between tokens white space is skipped; inside a string the
escapes are resolved; numbers and the three named constants are collected and judged when the first
character comes that cannot belong to them.

A string with an unpaired surrogate and a number beyond the range of doubles are tokens without a
value: the text around them can still be read.
-/

namespace PathQuery.Json

inductive Token
  | openList
  | closeList
  | openObject
  | closeObject
  | comma
  | colon
  | text (s : Option String)
  | constant (value : Json)

/-- What is being read. Collected characters are kept in reverse. -/
inductive Mode
  /-- Between tokens. -/
  | between
  /-- A number or a named constant. -/
  | bare (chars : List Char)
  /-- A string. `high` is the first half of a surrogate pair, when one was read last; `sound` is false
  after an unpaired one. -/
  | quoted (chars : List Char) (high : Option Nat) (sound : Bool)
  /-- A string, after a backslash. -/
  | escape (chars : List Char) (high : Option Nat) (sound : Bool)
  /-- A string, inside the four hexadecimal digits of a code: the digits still to come, and the code so
  far. -/
  | code (left : Nat) (value : Nat) (chars : List Char) (high : Option Nat) (sound : Bool)

structure Lexer where
  mode : Mode
  /-- Finished tokens, the last one first. -/
  tokens : List Token

def hexDigit? (c : Char) : Option Nat :=
  if c.isDigit then some (c.toNat - '0'.toNat)
  else if 'a' ≤ c ∧ c ≤ 'f' then some (c.toNat - 'a'.toNat + 10)
  else if 'A' ≤ c ∧ c ≤ 'F' then some (c.toNat - 'A'.toNat + 10)
  else none

/-- A number that is well formed always gives a value, if only an unreadable one. -/
def number? (chars : List Char) : Option Json :=
  (Decimal.Numeral.ofChars? chars).map fun n =>
    match n.toInt? with
    | some i => .number (.int i)
    | none => n.toFloat?.elim .unreadable fun x => .number (.float x)

def bareToken? (chars : List Char) : Option Token :=
  if chars = "null".toList then some (.constant .null)
  else if chars = "true".toList then some (.constant (.bool true))
  else if chars = "false".toList then some (.constant (.bool false))
  else (number? chars).map .constant

/-- Characters that numbers and named constants are made of. -/
def isBareChar (c : Char) : Bool :=
  c.isAlphanum || c == '+' || c == '-' || c == '.'

def isSpace (c : Char) : Bool :=
  c == ' ' || c == '\t' || c == '\n' || c == '\r'

def punctuation? (c : Char) : Option Token :=
  if c == '[' then some .openList
  else if c == ']' then some .closeList
  else if c == '\x7b' then some .openObject
  else if c == '\x7d' then some .closeObject
  else if c == ',' then some .comma
  else if c == ':' then some .colon
  else none

/-- The character that a one-letter escape stands for. -/
def escaped? (c : Char) : Option Char :=
  if c == '"' || c == '\\' || c == '/' then some c
  else if c == 'b' then some '\x08'
  else if c == 'f' then some '\x0c'
  else if c == 'n' then some '\n'
  else if c == 'r' then some '\r'
  else if c == 't' then some '\t'
  else none

/-- A string goes on after a complete code. The two halves of a surrogate pair make one character; a
half without its other half makes the string unsound. -/
def afterCode (value : Nat) (chars : List Char) (high : Option Nat) (sound : Bool) : Mode :=
  match high with
  | some h =>
    if 0xDC00 ≤ value ∧ value ≤ 0xDFFF then
      .quoted (Char.ofNat (0x10000 + (h - 0xD800) * 0x400 + (value - 0xDC00)) :: chars) none sound
    else .quoted chars none false
  | none =>
    if 0xD800 ≤ value ∧ value ≤ 0xDBFF then .quoted chars (some value) sound
    else if 0xDC00 ≤ value ∧ value ≤ 0xDFFF then .quoted chars none false
    else .quoted (Char.ofNat value :: chars) none sound

/-- The string that was read, or no value for an unsound one. -/
def finishString (chars : List Char) (high : Option Nat) (sound : Bool) : Token :=
  .text (if sound && high.isNone then some (String.ofList chars.reverse) else none)

/-- Starts a token. -/
def Lexer.start? (tokens : List Token) (c : Char) : Option Lexer :=
  if isSpace c then some ⟨.between, tokens⟩
  else if c == '"' then some ⟨.quoted [] none true, tokens⟩
  else match punctuation? c with
    | some token => some ⟨.between, token :: tokens⟩
    | none => if isBareChar c then some ⟨.bare [c], tokens⟩ else none

def Lexer.step? (l : Lexer) (c : Char) : Option Lexer :=
  match l.mode with
  | .between => start? l.tokens c
  | .bare chars =>
    if isBareChar c then some ⟨.bare (c :: chars), l.tokens⟩
    else do
      let token ← bareToken? chars.reverse
      start? (token :: l.tokens) c
  | .quoted chars high sound =>
    if c == '"' then some ⟨.between, finishString chars high sound :: l.tokens⟩
    else if c == '\\' then some ⟨.escape chars high sound, l.tokens⟩
    else if c.toNat < 0x20 then none
    else some ⟨.quoted (c :: chars) none (sound && high.isNone), l.tokens⟩
  | .escape chars high sound =>
    if c == 'u' then some ⟨.code 3 0 chars high sound, l.tokens⟩
    else do
      let char ← escaped? c
      some ⟨.quoted (char :: chars) none (sound && high.isNone), l.tokens⟩
  | .code left value chars high sound => do
    let digit ← hexDigit? c
    let value := 16 * value + digit
    match left with
    | 0 => some ⟨afterCode value chars high sound, l.tokens⟩
    | left + 1 => some ⟨.code left value chars high sound, l.tokens⟩

/-- The tokens of a text, if it is made of tokens. -/
def tokens? (text : String) : Option (List Token) := do
  let l ← text.toList.foldlM Lexer.step? ⟨.between, []⟩
  match l.mode with
  | .between => some l.tokens.reverse
  | .bare chars => do
    let token ← bareToken? chars.reverse
    some (token :: l.tokens).reverse
  | _ => none

end PathQuery.Json
