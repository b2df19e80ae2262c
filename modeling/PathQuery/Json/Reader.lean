import PathQuery.Json.Token
/-!
# Reading JSON

The tokens of a text are read from left to right with a stack of the lists and objects that are still
open. A list or object that closes at a level deeper than `maxDepth` is unreadable, and so is an object
with a key that has no value.
-/

namespace PathQuery.Json

/-- The deepest level at which lists and objects can be read. -/
def maxDepth : Nat := 127

/-- A list or object that is still open, its finished parts in reverse. A member without a sound key is
kept with no key. -/
inductive Frame
  | list (items : List Json)
  | object (members : List (Option String × Json))

/-- What may come next. -/
inductive Expect
  /-- A value. -/
  | value
  /-- A value or the end of a list that was just opened. -/
  | firstItem
  /-- A key. -/
  | key
  /-- A key or the end of an object that was just opened. -/
  | firstKey
  /-- The colon after a key. -/
  | colon (key : Option String)
  /-- A value for a key. -/
  | member (key : Option String)
  /-- A comma or the end of the innermost list or object. -/
  | next
  /-- Nothing: the value is complete. -/
  | done (value : Json)

structure Reader where
  stack : List Frame
  expect : Expect

/-- The members of an object whose keys are all sound. -/
def soundMembers? : List (Option String × Json) → Option (List (String × Json))
  | [] => some []
  | (none, _) :: _ => none
  | (some key, value) :: rest => (soundMembers? rest).map ((key, value) :: ·)

/-- The value of a list or object that closes at a level. -/
def Frame.close (level : Nat) (frame : Frame) : Json :=
  if maxDepth < level then .unreadable
  else match frame with
    | .list items => .list items.reverse
    | .object members => (soundMembers? members.reverse).elim .unreadable .object

/-- A finished value becomes part of the innermost list or object, or the result. -/
def Reader.finish? (stack : List Frame) (key : Option (Option String)) (value : Json) :
    Option Reader :=
  match stack, key with
  | [], _ => some ⟨[], .done value⟩
  | .list items :: below, _ => some ⟨.list (value :: items) :: below, .next⟩
  | .object members :: below, some key =>
    some ⟨.object ((key, value) :: members) :: below, .next⟩
  | .object _ :: _, none => none

/-- Reads the first token of a value, for the key that is given. The key of a list or object is kept on
the stack, as a member that waits for its value. -/
def Reader.begin? (stack : List Frame) (key : Option (Option String)) (token : Token) :
    Option Reader :=
  let held := match stack, key with
    | .object members :: below, some key => .object ((key, .null) :: members) :: below
    | stack, _ => stack
  match token with
  | .constant value => finish? stack key value
  | .text s => finish? stack key (s.elim .unreadable .text)
  | .openList => some ⟨.list [] :: held, .firstItem⟩
  | .openObject => some ⟨.object [] :: held, .firstKey⟩
  | _ => none

/-- Closes the innermost list or object. -/
def Reader.close? (stack : List Frame) : Option Reader :=
  match stack with
  | [] => none
  | frame :: below =>
    let value := frame.close stack.length
    match below with
    | .object ((key, _) :: members) :: rest => finish? (.object members :: rest) (some key) value
    | below => finish? below none value

def Reader.step? (r : Reader) (token : Token) : Option Reader :=
  match r.expect, token, r.stack with
  | .value, token, stack => begin? stack none token
  | .firstItem, .closeList, stack => close? stack
  | .firstItem, token, stack => begin? stack none token
  | .firstKey, .closeObject, stack => close? stack
  | .firstKey, .text key, stack => some ⟨stack, .colon key⟩
  | .key, .text key, stack => some ⟨stack, .colon key⟩
  | .colon key, .colon, stack => some ⟨stack, .member key⟩
  | .member key, token, stack => begin? stack (some key) token
  | .next, .comma, .list items :: below => some ⟨.list items :: below, .value⟩
  | .next, .comma, .object members :: below => some ⟨.object members :: below, .key⟩
  | .next, .closeList, .list items :: below => close? (.list items :: below)
  | .next, .closeObject, .object members :: below => close? (.object members :: below)
  | _, _, _ => none

/-- The value of a text that holds one JSON value and white space around it. -/
def parse? (text : String) : Option Json := do
  let r ← (← tokens? text).foldlM Reader.step? ⟨[], .value⟩
  match r.expect with
  | .done value => some value
  | _ => none

end PathQuery.Json
