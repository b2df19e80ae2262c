import PathQuery.Yaml.Token
/-!
# Documents of YAML

A document is a node: a scalar, a list, or a mapping. A node may have an anchor, to which references
elsewhere in the document go. An anchor is known by a number, which is how many different names there have
been before it, and a reference goes to the last node with its number.
-/

namespace PathQuery.Yaml

inductive Node
  | scalar (text : String) (style : Style) (tag : Option String)
  | list (items : List Node)
  | mapping (entries : List (Node × Node))
  | reference (number : Nat)
  deriving Inhabited, Repr

/-- The node that is left out where one is expected. -/
def Node.vacant : Node :=
  .scalar "" .plain none

structure Document where
  root : Node
  anchored : List (Nat × Node)

/-- The node that a reference goes to. -/
def Document.follow (d : Document) : Node → Node
  | .reference number => (d.anchored.lookup number).getD .vacant
  | node => node

/-! ### Reading tokens -/

/-- The tokens that follow, the number of each anchor's name, and the anchored nodes, the latest first. A
node is entered at its start, when it is not yet known. -/
structure Cursor where
  tokens : List Token
  names : List (String × Nat) := []
  anchored : List (Nat × Node) := []

abbrev Reading := StateT Cursor Option

namespace Reading

def peek : Reading (Option Token) := do
  return (← get).tokens.head?

def skip : Reading Unit :=
  modify fun c => { c with tokens := c.tokens.tail }

/-- Passes over a token if it is the next one. -/
def skipIf (t : Token) : Reading Bool := do
  if (← peek) = some t then
    skip
    return true
  else return false

/-- Whether a node is left out before one of these tokens. -/
def omitted (ends : List Token) : Reading Bool := do
  return (← peek).any ends.contains

def anchor : Reading (Option String) := do
  match ← peek with
  | some (.anchor name) =>
    skip
    return some name
  | _ => return none

def tag : Reading (Option (String × String)) := do
  match ← peek with
  | some (.tag handle suffix) =>
    skip
    return some (handle, suffix)
  | _ => return none

/-- The anchor and the tag of a node, which may stand in either order. -/
def properties : Reading (Option String × Option (String × String)) := do
  match ← anchor with
  | some name => return (some name, ← tag)
  | none =>
    match ← tag with
    | some parts => return (← anchor, some parts)
    | none => return (none, none)

/-- The tag that is meant by its parts. -/
def fullTag (handles : List (String × String)) : Option (String × String) → Reading (Option String)
  | none => return none
  | some ("", suffix) => return some suffix
  | some (handle, suffix) =>
    match handles.lookup handle with
    | some target => return some (target ++ suffix)
    | none => failure

/-- Enters a node, and gives how many were entered before it. -/
def enter (name : String) : Reading Nat := do
  let c ← get
  let number := c.names.length
  set { c with
    names := (name, number) :: c.names.filter (·.1 != name)
    anchored := (number, .vacant) :: c.anchored }
  return c.anchored.length

/-- Makes known the node that was entered behind so many others. -/
def record (position : Nat) (node : Node) : Reading Unit :=
  modify fun c => { c with
    anchored := c.anchored.modify (c.anchored.length - 1 - position) fun (number, _) => (number, node) }

/-! ### Nodes -/

mutual

/-- A node. Block collections are allowed inside of other ones only, and a list without an indentation of
its own only as a key or a value. -/
def node (handles : List (String × String)) (block indentless : Bool) : Nat → Reading Node
  | 0 => failure
  | fuel + 1 => do
    if let some (.reference name) ← peek then
      skip
      match (← get).names.lookup name with
      | some number => return .reference number
      | none => failure
    else
      let (name, parts) ← properties
      let tag ← fullTag handles parts
      match name with
      | none => content handles block indentless (parts.isSome) tag fuel
      | some name =>
        let position ← enter name
        let node ← content handles block indentless true tag fuel
        record position node
        return node

/-- A node without its anchor and tag. After one of these it may be left out. -/
def content (handles : List (String × String)) (block indentless optional : Bool)
    (tag : Option String) : Nat → Reading Node
  | 0 => failure
  | fuel + 1 => do
    match ← peek with
    | some (.scalar text style) =>
      skip
      return .scalar text style tag
    | some .flowList =>
      skip
      return .list (← flowItems handles true fuel)
    | some .flowMapping =>
      skip
      return .mapping (← flowEntries handles true fuel)
    | token =>
      if indentless && token == some .dash then return .list (← dashes handles fuel)
      else if block && token == some .blockList then
        skip
        return .list (← blockItems handles fuel)
      else if block && token == some .blockMapping then
        skip
        return .mapping (← blockEntries handles fuel)
      else if optional then return .scalar "" .plain tag
      else failure

/-- A node, unless it is left out before one of these tokens. -/
def nodeBefore (handles : List (String × String)) (block indentless : Bool) (ends : List Token) :
    Nat → Reading Node
  | 0 => failure
  | fuel + 1 => do
    if ← omitted ends then return .vacant else node handles block indentless fuel

/-- The value behind a colon. Without a colon it is left out. -/
def valueBefore (handles : List (String × String)) (block indentless : Bool) (ends : List Token) :
    Nat → Reading Node
  | 0 => failure
  | fuel + 1 => do
    if ← skipIf .value then nodeBefore handles block indentless ends fuel else return .vacant

def blockItems (handles : List (String × String)) : Nat → Reading (List Node)
  | 0 => failure
  | fuel + 1 => do
    if ← skipIf .dash then
      let item ← nodeBefore handles true false [.dash, .blockEnd] fuel
      return item :: (← blockItems handles fuel)
    else if ← skipIf .blockEnd then return []
    else failure

/-- The items of a list that has no indentation of its own. It ends with its last dash. -/
def dashes (handles : List (String × String)) : Nat → Reading (List Node)
  | 0 => failure
  | fuel + 1 => do
    if ← skipIf .dash then
      let item ← nodeBefore handles true false [.dash, .key, .value, .blockEnd] fuel
      return item :: (← dashes handles fuel)
    else return []

def blockEntries (handles : List (String × String)) : Nat → Reading (List (Node × Node))
  | 0 => failure
  | fuel + 1 => do
    if ← skipIf .key then
      let key ← nodeBefore handles true true [.key, .value, .blockEnd] fuel
      let value ← valueBefore handles true true [.key, .value, .blockEnd] fuel
      return (key, value) :: (← blockEntries handles fuel)
    else if ← skipIf .blockEnd then return []
    else failure

/-- The items of a list in brackets. A key among them starts a mapping of one entry; where the key itself
is left out, the token behind its mark is passed over. -/
def flowItems (handles : List (String × String)) (first : Bool) : Nat → Reading (List Node)
  | 0 => failure
  | fuel + 1 => do
    if ← skipIf .flowListEnd then return []
    else if !(← if first then pure true else skipIf .comma) then failure
    else if ← skipIf .flowListEnd then return []
    else if ← skipIf .key then
      let unnamed ← omitted [.value, .comma, .flowListEnd]
      let key ← nodeBefore handles false false [.value, .comma, .flowListEnd] fuel
      if unnamed then skip
      let value ← valueBefore handles false false [.comma, .flowListEnd] fuel
      return .mapping [(key, value)] :: (← flowItems handles false fuel)
    else
      let item ← node handles false false fuel
      return item :: (← flowItems handles false fuel)

/-- The entries of a mapping in braces. A node that is not marked as a key has no value. -/
def flowEntries (handles : List (String × String)) (first : Bool) : Nat → Reading (List (Node × Node))
  | 0 => failure
  | fuel + 1 => do
    if ← skipIf .flowMappingEnd then return []
    else if !(← if first then pure true else skipIf .comma) then failure
    else if ← skipIf .flowMappingEnd then return []
    else if ← skipIf .key then
      let key ← nodeBefore handles false false [.value, .comma, .flowMappingEnd] fuel
      let value ← valueBefore handles false false [.comma, .flowMappingEnd] fuel
      return (key, value) :: (← flowEntries handles false fuel)
    else
      let key ← node handles false false fuel
      return (key, .vacant) :: (← flowEntries handles false fuel)

end

end Reading

/-! ### Documents -/

/-- The handles of tags that are known without a directive. -/
def defaultHandles : List (String × String) :=
  [("!", "!"), ("!!", "tag:yaml.org,2002:")]

/-- The directives before a document: one version at most, and no handle twice. Gives the handles and the
tokens behind. -/
def directives? (versioned : Bool) (handles : List (String × String)) :
    List Token → Option (List (String × String) × List Token)
  | .version major minor :: rest =>
    if versioned || major != 1 || (minor != 1 && minor != 2) then none
    else directives? true handles rest
  | .handle name target :: rest =>
    if (handles.lookup name).isSome then none
    else directives? versioned ((name, target) :: handles) rest
  | tokens => some (handles, tokens)

/-- Whether the start of a document has to be marked, because of what precedes it. -/
def Token.needsStart : Token → Bool
  | .version .. | .handle .. | .documentStart => true
  | _ => false

/-- Reads the node of a document, which is left out if the document ends at once. Behind it only marks of
the document's end may follow. -/
def contents? (marked : Bool) (handles : List (String × String)) (tokens : List Token) :
    Option Document := do
  let read : Reading Node := do
    if marked && (← get).tokens.head?.all fun t => t.needsStart || t == .documentEnd then return .vacant
    else Reading.node (handles ++ defaultHandles) true false (4 * tokens.length + 4)
  let (root, c) ← read.run { tokens }
  if c.tokens.all (· == .documentEnd) then some ⟨root, c.anchored⟩ else none

/-- The one document of a text. A text without any has the node that is left out. -/
def parse? (text : String) : Option Document := do
  let tokens ← tokens? text
  if tokens.isEmpty then some ⟨.vacant, []⟩
  else if tokens.head?.any Token.needsStart then
    match ← directives? false [] tokens with
    | (handles, .documentStart :: rest) => contents? true handles rest
    | _ => none
  else contents? false [] tokens

end PathQuery.Yaml
