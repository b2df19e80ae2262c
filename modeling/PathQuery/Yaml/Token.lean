import PathQuery.Yaml.Scalar
/-!
# Tokens of a YAML text

A text is cut into tokens, which make its structure plain: where a block collection starts and ends is
read off the indentation, and a key is marked before it. A key is known by the colon behind it, so the
marks of a key and of the mapping that starts with it are put in before tokens that are there already. For
this, every place where a key may start is kept until a colon shows that it was one, or until its line
ends.
-/

namespace PathQuery.Yaml

inductive Token
  | version (major minor : Nat)
  | handle (name target : String)
  | documentStart
  | documentEnd
  | blockList
  | blockMapping
  | blockEnd
  | flowList
  | flowListEnd
  | flowMapping
  | flowMappingEnd
  | dash
  | comma
  | key
  | value
  | anchor (name : String)
  | reference (name : String)
  | tag (handle suffix : String)
  | scalar (text : String) (style : Style)
  deriving DecidableEq, Repr

/-! ### Tags and directives -/

/-- Characters of a tag. Between angle brackets and in a directive there are some more. -/
def isTagChar (long : Bool) (c : Char) : Bool :=
  isNameChar c || ";/?:@&=+$.%!~*()".toList.contains c || c.toNat == 39 || (long && ",[]".toList.contains c)

/-- How many octets a character has of which this is the first. -/
def octetCount? (octet : Nat) : Option Nat :=
  if octet < 0x80 then some 1
  else if octet < 0xC0 then none
  else if octet < 0xE0 then some 2
  else if octet < 0xF0 then some 3
  else if octet < 0xF8 then some 4
  else none

/-- Octets that a percent sign and two digits stand for. Where a character has several of them, all are
written in this way; `due` is how many are still to come. -/
def tagChars? (due : Nat) : List Char → Option (List Char)
  | '%' :: a :: b :: rest => do
    let octet ← hexNumber? [a, b]
    let due ← if due = 0 then octetCount? octet
      else if octet / 64 = 2 then some due else none
    return Char.ofNat octet :: (← tagChars? (due - 1) rest)
  | c :: rest => if due = 0 ∧ c ≠ '%' then (tagChars? 0 rest).map (c :: ·) else none
  | [] => if due = 0 then some [] else none

/-- The longest text of a tag here. What an octet of zero precedes does not count. -/
def tagText? (long optional : Bool) (p : Place) : Option (List Char × Place) := do
  let (chars, after) := p.span (isTagChar long)
  if chars.isEmpty && !optional then none
  else return ((← tagChars? 0 chars).takeWhile (·.toNat != 0), after)

/-- A handle of tags: a name between exclamation marks, of which the closing one may be missing. -/
def tagHandle (p : Place) : List Char × Place :=
  let (name, after) := p.step.span isNameChar
  if after.rest.head? = some '!' then ('!' :: name ++ ['!'], after.step) else ('!' :: name, after)

/-- A tag in its parts, the handle and what follows it. A tag in angle brackets has no handle, and neither
has a lone exclamation mark. -/
def tagParts? (p : Place) : Option (List Char × List Char × Place) :=
  if p.rest.take 2 == ['!', '<'] then do
    let (text, after) ← tagText? true false (p.advance 2)
    if after.rest.head? = some '>' then return ([], text, after.step) else none
  else do
    let (handle, after) := tagHandle p
    if 2 ≤ handle.length ∧ handle.getLast? = some '!' then
      let (text, after) ← tagText? false false after
      return (handle, text, after)
    else
      let (text, after) ← tagText? false true after
      if handle.length = 1 ∧ text.isEmpty then return ([], ['!'], after)
      else return (['!'], handle.tail ++ text, after)

/-- A tag has to be followed by a gap, or in a flow by a comma. -/
def tag? (flow : Bool) (p : Place) : Option (Token × Place) := do
  let (handle, suffix, after) ← tagParts? p
  if atGap after.rest || (flow && after.rest.head? == some ',') then
    return (.tag (String.ofList handle) (String.ofList suffix), after)
  else none

/-- A number of at most nine digits. -/
def shortNumber? (p : Place) : Option (Nat × Place) :=
  let (digits, after) := p.span Char.isDigit
  if digits.isEmpty || 9 < digits.length then none
  else some (digits.foldl (fun n d => 10 * n + (d.toNat - '0'.toNat)) 0, after)

/-- The version that a text is written in. -/
def version? (p : Place) : Option (Token × Place) := do
  let (major, p) ← shortNumber? (p.span isBlank).2
  if p.rest.head? ≠ some '.' then none
  else
    let (minor, p) ← shortNumber? p.step
    return (.version major minor, p)

/-- A handle of tags and the text that it stands for. -/
def handle? (p : Place) : Option (Token × Place) := do
  let p := (p.span isBlank).2
  if p.rest.head? ≠ some '!' then none
  let (name, p) := tagHandle p
  if p.rest.head?.any isBlank && (name == ['!'] || (2 ≤ name.length && name.getLast? == some '!')) then
    let (target, p) ← tagText? true false (p.span isBlank).2
    if atGap p.rest then return (.handle (String.ofList name) (String.ofList target), p) else none
  else none

/-- A directive takes a line of its own, but for a comment. -/
def directive? (p : Place) : Option (Token × Place) := do
  let (name, p) := p.step.span isNameChar
  if !atGap p.rest then none
  else
    let (token, p) ←
      if name = "YAML".toList then version? p
      else if name = "TAG".toList then handle? p
      else none
    let p := p.skipComment
    if p.rest.head?.all isBreak then return (token, p.step) else none

/-- The name behind an anchor's mark, or behind the mark of a reference to one. -/
def anchorName? (p : Place) : Option (String × Place) :=
  let (name, after) := p.step.span isNameChar
  if !name.isEmpty && (atGap after.rest || after.rest.head?.any fun c =>
      "?:,]\x7d%@".toList.contains c || c.toNat == 96) then
    some (String.ofList name, after)
  else none

/-! ### Reading on -/

/-- A place where a key may start: the number of tokens before it, and whether the line has to hold a key,
as the lines of a block mapping do. -/
structure Key where
  number : Nat
  required : Bool
  line : Nat
  column : Nat
  octets : Nat

/-- A key ends on its line, and takes 1024 octets of it at most. -/
def Key.isStale (k : Key) (p : Place) : Bool :=
  k.line < p.line || k.octets + 1024 < p.octets

/-- The tokens up to a place, the latest first. The indents are the columns of the block collections that
are open, the innermost first. Beside the place where a key may have started there are those outside of
each open bracket. -/
structure Scanner where
  place : Place
  tokens : List Token := []
  indents : List Nat := []
  key : Option Key := none
  outer : List (Option Key) := []
  keyAllowed : Bool := true

namespace Scanner

/-- Whether a bracket is open. -/
def inFlow (s : Scanner) : Bool :=
  !s.outer.isEmpty

/-- The first column that is further right than the innermost block collection. -/
def least (s : Scanner) : Nat :=
  s.indents.head?.elim 0 (· + 1)

def push (s : Scanner) (t : Token) : Scanner :=
  { s with tokens := t :: s.tokens }

/-- Puts a token behind the first `n` ones. -/
def insert (s : Scanner) (n : Nat) (t : Token) : Scanner :=
  { s with tokens := s.tokens.insertIdx (s.tokens.length - n) t }

def passing (s : Scanner) (n : Nat) : Scanner :=
  { s with place := s.place.advance n }

def allow (s : Scanner) (keyAllowed : Bool) : Scanner :=
  { s with keyAllowed }

/-- Closes the block collections from a column on. -/
def closeFrom (s : Scanner) (column : Nat) : Scanner :=
  let closed := s.indents.takeWhile (column ≤ ·)
  { s with
    indents := s.indents.drop closed.length
    tokens := List.replicate closed.length .blockEnd ++ s.tokens }

/-- Starts a block collection behind the first `n` tokens, if the column is further right than the
innermost one. -/
def openAt (s : Scanner) (column n : Nat) (start : Token) : Scanner :=
  if s.inFlow || column < s.least then s
  else { s.insert n start with indents := column :: s.indents }

/-- Gives up the place where a key may have started. -/
def dropKey? (s : Scanner) : Option Scanner :=
  if s.key.any (·.required) then none else some { s with key := none }

/-- Keeps the place as one where a key may start. -/
def saveKey? (s : Scanner) : Option Scanner :=
  if s.keyAllowed then do
    let s ← s.dropKey?
    let required := !s.inFlow && s.indents.head? == some s.place.column
    let ⟨_, line, column, octets⟩ := s.place
    return { s with key := some ⟨s.tokens.length, required, line, column, octets⟩ }
  else some s

/-- Gives up the keys whose line has ended. -/
def dropStale? (s : Scanner) : Option Scanner :=
  let stale (k : Key) := k.isStale s.place
  if (s.key :: s.outer).any (·.any fun k => stale k && k.required) then none
  else some { s with key := s.key.filter (!stale ·), outer := s.outer.map (·.filter (!stale ·)) }

/-- Passes over blanks, comments and line breaks. A tab may not stand where a key is allowed in a block;
there a line break allows a key. -/
def gapFrom (flow allowed comment : Bool) (line column octets : Nat) : List Char → Place × Bool
  | [] => (⟨[], line, column, octets⟩, allowed)
  | c :: rest =>
    if isBreak c then gapFrom flow (allowed || !flow) false (line + 1) 0 0 rest
    else if comment || c == '#' then
      gapFrom flow allowed true line (column + 1) (octets + c.utf8Size) rest
    else if c == ' ' || (c == '\t' && (flow || !allowed)) || (c.toNat == 0xFEFF && column == 0) then
      gapFrom flow allowed false line (column + 1) (octets + c.utf8Size) rest
    else (⟨c :: rest, line, column, octets⟩, allowed)

/-- Goes to the start of the next token. -/
def settle? (s : Scanner) : Option Scanner := do
  let (place, keyAllowed) :=
    gapFrom s.inFlow s.keyAllowed false s.place.line s.place.column s.place.octets s.place.rest
  let s ← dropStale? { s with place, keyAllowed }
  return if s.inFlow then s else s.closeFrom (s.place.column + 1)

/-- Leaves all block collections, at the end of a document. -/
def leave? (s : Scanner) : Option Scanner := do
  let s ← (if s.inFlow then s else s.closeFrom 0).dropKey?
  return s.allow false

/-- In a block, a mark that starts a line stands where a key is allowed and may start a collection. -/
def mark? (s : Scanner) (start : Token) : Option Scanner :=
  if s.inFlow then some s
  else if s.keyAllowed then some (s.openAt s.place.column s.tokens.length start)
  else none

/-- The colon between a key and its value. -/
def colon? (s : Scanner) : Option Scanner :=
  match s.key with
  | some k =>
    let s := (s.insert k.number .key).openAt k.column k.number .blockMapping
    some (({ s with key := none }.allow false).push .value |>.passing 1)
  | none => do
    let s ← s.mark? .blockMapping
    return (s.allow !s.inFlow).push .value |>.passing 1

def openBracket? (s : Scanner) (t : Token) : Option Scanner := do
  let s ← s.saveKey?
  return ({ s with key := none, outer := s.key :: s.outer }.allow true).push t |>.passing 1

def closeBracket? (s : Scanner) (t : Token) : Option Scanner := do
  let s ← s.dropKey?
  let s := match s.outer with
    | [] => s
    | key :: outer => { s with key, outer }
  return (s.allow false).push t |>.passing 1

/-- Reads a token behind which no key may start, but which may start one. -/
def word? (s : Scanner) (read : Place → Option (Token × Place)) : Option Scanner := do
  let s ← s.saveKey?
  let (token, place) ← read s.place
  return { s with place }.push token |>.allow false

def plainScalar? (s : Scanner) : Option Scanner := do
  let s ← s.saveKey?
  let (text, place, broken) ← plain? s.inFlow s.least s.place
  return { s with place }.push (.scalar text .plain) |>.allow broken

def blockScalar? (s : Scanner) (style : Style) : Option Scanner := do
  let s ← s.dropKey?
  let (text, place) ← block? (style == .folded) s.least s.place
  return { s with place }.push (.scalar text style) |>.allow true

/-- The marks of a document's start and end, and the directives before it. -/
def documentMark? (s : Scanner) : Option Scanner := do
  let s ← s.leave?
  if s.place.rest.head? == some '%' then
    let (token, place) ← directive? s.place
    return { s with place }.push token
  else
    return s.push (if s.place.rest.head? == some '-' then .documentStart else .documentEnd) |>.passing 3

/-- Reads the token that starts with a character. -/
def token? (s : Scanner) (c : Char) (rest : List Char) : Option Scanner :=
  let flow := s.inFlow
  if (s.place.column == 0 && c == '%') || s.place.atMark then s.documentMark?
  else if c == '[' then s.openBracket? .flowList
  else if c == '\x7b' then s.openBracket? .flowMapping
  else if c == ']' then s.closeBracket? .flowListEnd
  else if c == '\x7d' then s.closeBracket? .flowMappingEnd
  else if c == ',' then do return ((← s.dropKey?).allow true).push .comma |>.passing 1
  else if c == '-' && atGap rest then do
    return ((← (← s.mark? .blockList).dropKey?).allow true).push .dash |>.passing 1
  else if c == '?' && (flow || atGap rest) then do
    return ((← (← s.mark? .blockMapping).dropKey?).allow !flow).push .key |>.passing 1
  else if c == ':' && (flow || atGap rest) then s.colon?
  else if c == '*' then s.word? fun p => (anchorName? p).map fun (name, p) => (.reference name, p)
  else if c == '&' then s.word? fun p => (anchorName? p).map fun (name, p) => (.anchor name, p)
  else if c == '!' then s.word? (tag? flow)
  else if c == '|' && !flow then s.blockScalar? .literal
  else if c == '>' && !flow then s.blockScalar? .folded
  else if c == '"' || c.toNat == 39 then
    s.word? fun p => (quoted? (c == '"') p).map fun (text, p) => (.scalar text .quoted, p)
  else if startsPlain flow s.place.rest then s.plainScalar?
  else none

/-- All tokens, in their order. -/
def scan? : Nat → Scanner → Option (List Token)
  | 0, _ => none
  | fuel + 1, s => do
    let s ← s.settle?
    match s.place.rest with
    | [] => return (← s.leave?).tokens.reverse
    | c :: rest => scan? fuel (← s.token? c rest)

end Scanner

def tokens? (text : String) : Option (List Token) :=
  if text.toList.all isAllowed then
    let chars := normalizeBreaks text.toList
    Scanner.scan? (chars.length + 1) { place := { rest := chars } }
  else none

end PathQuery.Yaml
