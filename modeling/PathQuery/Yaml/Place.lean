/-!
# Places in a YAML text

A text is read in lines. Every way to end a line is brought to one first, but for the line and paragraph
separators, which a scalar may keep. A place is what follows in the text, with its line and its column,
which counts characters. How far it is from the start of its line is counted in octets besides.
-/

namespace PathQuery.Yaml

/-! ### Characters -/

/-- Characters that a text may hold. -/
def isAllowed (c : Char) : Bool :=
  let n := c.toNat
  n == 9 || n == 10 || n == 13 || (0x20 ≤ n && n ≤ 0x7E) || n == 0x85 || (0xA0 ≤ n && n ≤ 0xFFFD) ||
    0x10000 ≤ n

/-- Writes every end of a line, the two separators apart, as a line feed. -/
def normalizeBreaks : List Char → List Char
  | '\r' :: '\n' :: rest => '\n' :: normalizeBreaks rest
  | c :: rest => (if c == '\r' || c.toNat == 0x85 then '\n' else c) :: normalizeBreaks rest
  | [] => []

def isBreak (c : Char) : Bool :=
  c == '\n' || c.toNat == 0x2028 || c.toNat == 0x2029

def isBlank (c : Char) : Bool :=
  c == ' ' || c == '\t'

def isGap (c : Char) : Bool :=
  isBlank c || isBreak c

/-- Whether a text starts with a blank or a line break, or is at its end. -/
def atGap (cs : List Char) : Bool :=
  cs.head?.all isGap

/-- The brackets and the comma of flow collections. -/
def isFlowMark (c : Char) : Bool :=
  c == ',' || c == '[' || c == ']' || c == '\x7b' || c == '\x7d'

/-- Characters of the names of anchors and tags. -/
def isNameChar (c : Char) : Bool :=
  c.isAlphanum || c == '_' || c == '-'

/-! ### Places -/

structure Place where
  rest : List Char
  line : Nat := 0
  column : Nat := 0
  /-- The octets before it in its line. -/
  octets : Nat := 0

namespace Place

/-- The place behind the next character. -/
def step (p : Place) : Place :=
  match p.rest with
  | [] => p
  | c :: rest =>
    if isBreak c then ⟨rest, p.line + 1, 0, 0⟩ else ⟨rest, p.line, p.column + 1, p.octets + c.utf8Size⟩

def advance (p : Place) : Nat → Place
  | 0 => p
  | n + 1 => p.step.advance n

/-- The place where a given end of the text starts. -/
def goTo (p : Place) (rest : List Char) : Place :=
  p.advance (p.rest.length - rest.length)

/-- The characters up to the first one that fails a test, and the place of that one. -/
def span (p : Place) (test : Char → Bool) : List Char × Place :=
  let chars := p.rest.takeWhile test
  (chars, p.advance chars.length)

/-- Whether the first line of a document starts here, or the line that ends it. -/
def atMark (p : Place) : Bool :=
  p.column == 0 && (p.rest.take 3 == "---".toList || p.rest.take 3 == "...".toList) && atGap (p.rest.drop 3)

/-- Passes over blanks, and over a comment if one follows. -/
def skipComment (p : Place) : Place :=
  let p := (p.span isBlank).2
  if p.rest.head? = some '#' then (p.span (!isBreak ·)).2 else p

end Place

end PathQuery.Yaml
