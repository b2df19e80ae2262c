import PathQuery.Text.Alphanumeric
import PathQuery.Text.Blank
import PathQuery.Text.Word
/-!
# Environment files

A file of assignments, one to a line, that complete the environment: a variable that is set already keeps
its value. Values may be quoted, with a quoted value running over several lines, and may refer to
variables by a dollar sign. A line that cannot be read ends the file; what stands before it counts. No
variable can be set to a value that holds a NUL.
-/

namespace PathQuery

/-- The variables that are set, with their values. -/
abbrev Environment := String → Option String

/-- Sets a variable unless it is set already. -/
def Environment.complete (environment : Environment) (key value : String) : Environment :=
  fun name => (environment name).orElse fun _ => if name = key then some value else none

/-- What a name refers to. An environment is a list of texts, each a variable, an equals sign and its value,
and a name refers to what follows it and an equals sign. So a name may reach into a value: where `A` is set
to `b=c`, the name `A=b` refers to `c`. -/
def Environment.refer (environment : Environment) (name : String) : Option String :=
  match name.toList.dropWhile (· ≠ '=') with
  | [] => environment name
  | _ :: head =>
    (environment (String.ofList (name.toList.takeWhile (· ≠ '=')))).bind
      (Text.afterHead? (String.ofList head ++ "="))

namespace EnvFile

def quoteMark : Char := Char.ofNat 39

/-! ### Lines -/

/-- Where a line stands with its quotes. -/
inductive Quoting
  | plain
  | blank
  | escape
  | strong
  | strongEscape
  | weak
  | weakEscape
  deriving DecidableEq, Repr

def Quoting.unquoted (c : Char) : Quoting :=
  if c = '\\' then .escape
  else if c = '"' then .weak
  else if c = quoteMark then .strong
  else .plain

def Quoting.step (q : Quoting) (c : Char) : Quoting :=
  match q with
  | .plain => if Text.isBlank c ∧ c ≠ '\n' ∧ c ≠ '\r' then .blank else .unquoted c
  | .blank => .unquoted c
  | .escape => .plain
  | .strong => if c = '\\' then .strongEscape else if c = quoteMark then .plain else .strong
  | .strongEscape => .strong
  | .weak => if c = '\\' then .weakEscape else if c = '"' then .plain else .weak
  | .weakEscape => .weak

/-- A physical line: its characters with the line break, and what follows. -/
def takeLine : List Char → List Char × List Char
  | [] => ([], [])
  | '\n' :: rest => (['\n'], rest)
  | c :: rest => let (line, after) := takeLine rest; (c :: line, after)

/-- A line up to a comment, with the quoting at its end. A comment follows a blank. -/
def beforeComment (q : Quoting) : List Char → List Char × Option Quoting
  | [] => ([], some q)
  | c :: rest =>
    if q = .blank ∧ c = '#' then ([], none)
    else
      let (line, last) := beforeComment (q.step c) rest
      (c :: line, last)

def dropLineBreak (line : List Char) : List Char :=
  match line.reverse with
  | '\n' :: '\r' :: rest => rest.reverse
  | '\n' :: rest => rest.reverse
  | _ => line

/-- The logical lines of a text: a line whose quotes are open goes on on the next one. The last one is
`none` if the text ends inside of it. -/
def logicalLines : Nat → List Char → Quoting → List Char → List (Option (List Char))
  | 0, _, _, _ => []
  | fuel + 1, before, q, text =>
    if text.isEmpty then if q = .plain then [] else [none]
    else
      let (line, rest) := takeLine text
      if ((before ++ line).dropWhile Text.isBlank).head? = some '#' then
        some [] :: logicalLines fuel [] .plain rest
      else
        match beforeComment q line with
        | (line, none) => some (before ++ line) :: logicalLines fuel [] .plain rest
        | (line, some .plain) =>
          some (dropLineBreak (before ++ line)) :: logicalLines fuel [] .plain rest
        | (line, some q) => logicalLines fuel (before ++ line) q rest

/-! ### Values -/

/-- A reference to a variable that is being read, with its name in reverse. -/
inductive Reference
  | none
  | bare (name : List Char)
  | braced (name : List Char)

/-- A value that is being read. -/
structure Value where
  output : List Char := []
  strong : Bool := false
  weak : Bool := false
  escaped : Bool := false
  /-- Nothing but blanks and a comment may follow. -/
  ended : Bool := false
  /-- A comment has started. -/
  comment : Bool := false
  reference : Reference := .none

/-- The value of a variable that is referred to; one that is not set counts as empty. -/
def valueOf (environment : Environment) (name : List Char) : List Char :=
  ((environment.refer (String.ofList name.reverse)).getD "").toList

def Value.step (environment : Environment) (v : Value) (c : Char) : Option Value :=
  let put (v : Value) (cs : List Char) : Value := { v with output := v.output ++ cs }
  if v.comment then some v
  else if v.ended then
    if c = ' ' ∨ c = '\t' then some v
    else if c = '#' then some { v with comment := true }
    else none
  else if v.escaped then
    let v := { v with escaped := false }
    if c = '\\' ∨ c = quoteMark ∨ c = '"' ∨ c = '$' ∨ c = ' ' then some (put v [c])
    else if c = 'n' then some (put v ['\n'])
    else none
  else if v.strong then
    if c = quoteMark then some { v with strong := false } else some (put v [c])
  else
    match v.reference with
    | .bare name =>
      if Text.isAlphanumeric c then some { v with reference := .bare (c :: name) }
      else if c = '\x7b' ∧ name.isEmpty then some { v with reference := .braced [] }
      else
        let v := put v (valueOf environment name)
        if c = '$' then some { v with reference := .bare [] }
        else some (put { v with reference := .none } [c])
    | .braced name =>
      if c = '\x7d' then some (put { v with reference := .none } (valueOf environment name))
      else some { v with reference := .braced (c :: name) }
    | .none =>
      if c = '$' then some { v with reference := .bare [] }
      else if v.weak then
        if c = '"' then some { v with weak := false }
        else if c = '\\' then some { v with escaped := true }
        else some (put v [c])
      else if c = quoteMark then some { v with strong := true }
      else if c = '"' then some { v with weak := true }
      else if c = '\\' then some { v with escaped := true }
      else if c = ' ' ∨ c = '\t' then some { v with ended := true }
      else some (put v [c])

def readValue? (environment : Environment) (text : List Char) : Option String := do
  let v ← text.foldlM (Value.step environment) {}
  if v.strong ∨ v.weak then none
  else
    match v.reference with
    | .none => return String.ofList v.output
    | .bare name => return String.ofList (v.output ++ valueOf environment name)
    | .braced _ => none

/-! ### Assignments -/

def isKeyStart (c : Char) : Bool :=
  c.isAlpha || c == '_'

def isKeyChar (c : Char) : Bool :=
  c.isAlphanum || c == '_' || c == '.'

/-- A name at the start of a text. -/
def readKey? (text : List Char) : Option (String × List Char) :=
  if text.head?.any isKeyStart then
    some (String.ofList (text.takeWhile isKeyChar), text.dropWhile isKeyChar)
  else none

/-- A name followed by an equals sign. The name may be preceded by `export`. -/
def readTarget? (text : List Char) : Option (String × List Char) := do
  let (key, rest) ← readKey? text
  match rest.dropWhile Text.isBlank with
  | '=' :: rest => return (key, rest)
  | rest =>
    if key = "export" then
      let (key, rest) ← readKey? rest
      match rest.dropWhile Text.isBlank with
      | '=' :: rest => return (key, rest)
      | _ => none
    else none

/-- An assignment, or nothing on a line that is empty. -/
def readLine? (environment : Environment) (line : List Char) : Option (Option (String × String)) :=
  let line := (Text.trim (String.ofList line)).toList
  if line.isEmpty ∨ line.head? = some '#' then some none
  else do
    let (key, rest) ← readTarget? line
    let rest := rest.dropWhile Text.isBlank
    if rest.isEmpty ∨ rest.head? = some '#' then return some (key, "")
    else return some (key, ← readValue? environment rest)

/-- The environment completed by lines, each seeing the assignments before it. There is none if a variable
cannot be set. -/
def readLines? (environment : Environment) : List (Option (List Char)) → Option Environment
  | [] => some environment
  | none :: _ => some environment
  | some line :: rest =>
    match readLine? environment line with
    | none => some environment
    | some none => readLines? environment rest
    | some (some (key, value)) =>
      if (environment key).isNone ∧ value.toList.any (·.toNat == 0) then none
      else readLines? (environment.complete key value) rest

end EnvFile

/-- The environment completed by the text of a file. A mark of the byte order may precede the text. -/
def Environment.load? (environment : Environment) (text : String) : Option Environment :=
  let chars := match text.toList with
    | c :: rest => if c.toNat = 0xFEFF then rest else c :: rest
    | [] => []
  EnvFile.readLines? environment (EnvFile.logicalLines (chars.length + 1) [] .plain chars)

end PathQuery
