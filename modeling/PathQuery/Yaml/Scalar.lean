import PathQuery.Yaml.Place
/-!
# Scalars of a YAML text

A scalar is plain, quoted, or a block of lines. In the first two, a single line break is folded into a
blank, and the blanks around it go. A block keeps its line breaks or folds them, as its header tells.
-/

namespace PathQuery.Yaml

inductive Style
  | plain
  | quoted
  | literal
  | folded
  deriving DecidableEq, Repr

/-- What is left of a gap between two words. A single line break becomes a blank, further ones are kept. -/
def foldGap (gap : List Char) : List Char :=
  match gap.filter isBreak with
  | [] => gap
  | ['\n'] => [' ']
  | '\n' :: more => more
  | breaks => breaks

/-! ### Plain scalars -/

/-- Whether a plain scalar can start here. -/
def startsPlain (flow : Bool) : List Char → Bool
  | [] => false
  | c :: rest =>
    if c == '-' then !rest.head?.any isBlank
    else if c == '?' || c == ':' then !flow && !atGap rest
    else !(isGap c || isFlowMark c || "#&*!|>\"%@".toList.contains c || c.toNat == 39 || c.toNat == 96)

/-- A word of a plain scalar. It ends before a gap, before a colon with a gap behind it, and in a flow
before a mark of the flow; there a colon directly before a mark is refused. -/
def plainWord? (flow : Bool) : List Char → Option (List Char)
  | [] => some []
  | c :: rest =>
    if isGap c then some []
    else if flow && c == ':' && rest.head?.any fun d => d == '?' || isFlowMark d then none
    else if (c == ':' && atGap rest) || (flow && isFlowMark c) then some []
    else (plainWord? flow rest).map (c :: ·)

/-- Whether a tab stands among the first `least` columns of a line of a gap. -/
def hasTabBefore (least : Nat) (column : Option Nat) : List Char → Bool
  | [] => false
  | c :: rest =>
    if isBreak c then hasTabBefore least (some 0) rest
    else (c == '\t' && column.any (· < least)) || hasTabBefore least (column.map (· + 1)) rest

/-- A plain scalar with its words joined, the place behind it and behind the gap that follows it, and
whether a line ends in that gap. In a block its lines start at column `least` or later. -/
def plainFrom? (flow : Bool) (least : Nat) : Nat → Place → Option (List Char × Place × Bool)
  | 0, _ => none
  | fuel + 1, p => do
    let word ← plainWord? flow p.rest
    let (gap, after) := (p.advance word.length).span isGap
    if hasTabBefore least none gap then none
    else
      let broken := gap.any isBreak
      if gap.isEmpty || (!flow && after.column < least) || after.atMark ||
          after.rest.head? == some '#' then
        return (word, after, broken)
      else
        let (more, after, later) ← plainFrom? flow least fuel after
        if more.isEmpty then return (word, after, broken)
        else return (word ++ foldGap gap ++ more, after, later)

def plain? (flow : Bool) (least : Nat) (p : Place) : Option (String × Place × Bool) := do
  let (text, after, broken) ← plainFrom? flow least (p.rest.length + 1) p
  return (String.ofList text, after, broken)

/-! ### Quoted scalars -/

/-- A word between single quotes, of which two stand for one, and the text behind it. -/
def singleWord : List Char → List Char × List Char
  | [] => ([], [])
  | c :: rest =>
    if isGap c then ([], c :: rest)
    else if c.toNat = 39 then
      match rest with
      | d :: after =>
        if d.toNat = 39 then
          let (word, after) := singleWord after
          (c :: word, after)
        else ([], c :: rest)
      | [] => ([], c :: rest)
    else
      let (word, after) := singleWord rest
      (c :: word, after)

/-- The characters that one-letter escapes stand for. -/
def escapes : List (Char × Nat) :=
  [('0', 0), ('a', 7), ('b', 8), ('t', 9), ('\t', 9), ('n', 10), ('v', 11), ('f', 12), ('r', 13),
    ('e', 27), (' ', 32), ('"', 34), ('/', 47), ('\\', 92), ('N', 0x85), ('_', 0xA0), ('L', 0x2028),
    ('P', 0x2029)]

def hexValue? (c : Char) : Option Nat :=
  if c.isDigit then some (c.toNat - '0'.toNat)
  else if 'a' ≤ c ∧ c ≤ 'f' then some (c.toNat - 'a'.toNat + 10)
  else if 'A' ≤ c ∧ c ≤ 'F' then some (c.toNat - 'A'.toNat + 10)
  else none

def hexNumber? (digits : List Char) : Option Nat := do
  let values ← digits.mapM hexValue?
  return values.foldl (fun n d => 16 * n + d) 0

/-- The character of a hexadecimal code. -/
def charOfHex? (digits : List Char) : Option Char := do
  let code ← hexNumber? digits
  if code.isValidChar then some (Char.ofNat code) else none

/-- A word between double quotes, escapes resolved, and the text behind it. It ends before an escaped
line break. -/
def doubleWord? : List Char → Option (List Char × List Char)
  | [] => some ([], [])
  | '\\' :: 'x' :: a :: b :: rest => do
    let c ← charOfHex? [a, b]
    let (word, after) ← doubleWord? rest
    return (c :: word, after)
  | '\\' :: 'u' :: a :: b :: c :: d :: rest => do
    let c ← charOfHex? [a, b, c, d]
    let (word, after) ← doubleWord? rest
    return (c :: word, after)
  | '\\' :: 'U' :: a :: b :: c :: d :: e :: f :: g :: h :: rest => do
    let c ← charOfHex? [a, b, c, d, e, f, g, h]
    let (word, after) ← doubleWord? rest
    return (c :: word, after)
  | '\\' :: e :: rest =>
    if isBreak e then some ([], '\\' :: e :: rest)
    else do
      let code ← escapes.lookup e
      let (word, after) ← doubleWord? rest
      return (Char.ofNat code :: word, after)
  | c :: rest =>
    if c == '"' || isGap c then some ([], c :: rest)
    else (doubleWord? rest).map fun (word, after) => (c :: word, after)

/-- The words up to the closing quote, joined. A line break that is escaped goes without a trace. No line
of a quoted scalar may look like the start or the end of a document. -/
def quotedFrom? (word? : List Char → Option (List Char × List Char)) :
    Nat → Place → Option (List Char × Place)
  | 0, _ => none
  | fuel + 1, p => do
    if p.atMark then none
    else
      let (word, rest) ← word? p.rest
      let p := p.goTo rest
      match rest with
      | [] => none
      | c :: _ =>
        if c == '\\' then
          let (gap, after) := (p.advance 2).span isGap
          let (more, after) ← quotedFrom? word? fuel after
          return (word ++ gap.filter isBreak ++ more, after)
        else if isGap c then
          let (gap, after) := p.span isGap
          let (more, after) ← quotedFrom? word? fuel after
          return (word ++ foldGap gap ++ more, after)
        else return (word, p.step)

/-- A quoted scalar, from its opening quote on, and the place behind it. -/
def quoted? (double : Bool) (p : Place) : Option (String × Place) := do
  let (text, after) ←
    quotedFrom? (if double then doubleWord? else fun cs => some (singleWord cs)) (p.rest.length + 1) p.step
  return (String.ofList text, after)

/-! ### Blocks of lines -/

/-- What becomes of the line breaks at the end of a block. -/
inductive Chomping
  | strip
  | clip
  | keep
  deriving DecidableEq, Repr

def chompingOf? : List Char → Option (Chomping × List Char)
  | '-' :: rest => some (.strip, rest)
  | '+' :: rest => some (.keep, rest)
  | _ => none

/-- A digit that tells how far a block is indented. Zero is refused. -/
def indentOf? : List Char → Option (Option Nat × List Char)
  | c :: rest =>
    if c == '0' then none
    else if c.isDigit then some (some (c.toNat - '0'.toNat), rest)
    else some (none, c :: rest)
  | [] => some (none, [])

/-- The header of a block behind its first mark: chomping and indentation, in either order. -/
def blockHeader? (cs : List Char) : Option (Chomping × Option Nat × List Char) :=
  match chompingOf? cs with
  | some (chomping, rest) => do
    let (indent, rest) ← indentOf? rest
    return (chomping, indent, rest)
  | none => do
    let (indent, rest) ← indentOf? cs
    if indent.isNone then return (.clip, none, cs)
    else
      let (chomping, rest) := (chompingOf? rest).getD (.clip, rest)
      return (chomping, indent, rest)

/-- Passes over empty lines and over the indentation of the line behind them, which has at most `indent`
columns. Gives the line breaks and the rightmost column that is reached. -/
def emptyLines? (indent : Option Nat) : Nat → Place → Option (List Char × Nat × Place)
  | 0, _ => none
  | fuel + 1, p =>
    let room := indent.elim p.rest.length (· - p.column)
    let p := p.advance ((p.rest.take room).takeWhile (· == ' ')).length
    match p.rest with
    | [] => some ([], p.column, p)
    | c :: _ =>
      if c == '\t' && indent.all (p.column < ·) then none
      else if isBreak c then do
        let (breaks, deepest, after) ← emptyLines? indent fuel p.step
        return (c :: breaks, max p.column deepest, after)
      else some ([], p.column, p)

/-- The end of a line and the empty lines behind it. -/
structure Ending where
  first : List Char
  empty : List Char

/-- What stands between two lines of a block. In a folded block a single line break becomes a blank,
unless one of the two lines starts with a blank. -/
def Ending.join (folded spaced : Bool) (e : Ending) : List Char :=
  if folded && !spaced && e.first == ['\n'] then (if e.empty.isEmpty then [' '] else e.empty)
  else e.first ++ e.empty

/-- The lines of a block at the column `indent`, joined, and the end of the last one. -/
def blockLines? (folded : Bool) (indent : Nat) :
    Nat → Ending → Bool → Place → Option (List Char × Ending × Place)
  | 0, _, _, _ => none
  | fuel + 1, ending, spaced, p =>
    if p.column == indent && !p.rest.isEmpty then do
      let blank := p.rest.head?.any isBlank
      let (line, p) := p.span (!isBreak ·)
      let (empty, _, after) ← emptyLines? (some indent) (p.rest.length + 1) p.step
      let (more, last, after) ← blockLines? folded indent fuel ⟨p.rest.take 1, empty⟩ blank after
      return (ending.join folded (spaced || blank) ++ line ++ more, last, after)
    else some ([], ending, p)

/-- A block of lines, from its first mark on, and the place behind it. Its lines start at column `least`
or later. -/
def block? (folded : Bool) (least : Nat) (p : Place) : Option (String × Place) := do
  let (chomping, given, rest) ← blockHeader? p.step.rest
  let p := (p.goTo rest).skipComment
  if !p.rest.head?.all isBreak then none
  else
    let p := p.step
    let given := given.map (least - 1 + ·)
    let (empty, deepest, p) ← emptyLines? given (p.rest.length + 1) p
    let indent := given.getD (max (max deepest least) 1)
    let (text, last, p) ← blockLines? folded indent (p.rest.length + 1) ⟨[], empty⟩ false p
    let tail := match chomping with
      | .strip => []
      | .clip => last.first
      | .keep => last.first ++ last.empty
    return (String.ofList (text ++ tail), p)

end PathQuery.Yaml
