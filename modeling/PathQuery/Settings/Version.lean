import PathQuery.Settings.Number
import PathQuery.Text.Blank
/-!
# Versions

The version of the host framework that queries are compiled for, and what depends on it.
-/

namespace PathQuery

structure Version where
  major : Nat
  minor : Nat
  deriving DecidableEq, Repr

namespace Version

def latest : Version := ⟨5, 2⟩

instance : Inhabited Version :=
  ⟨latest⟩

/-- Whether the first version is not later than the second. -/
def le (v w : Version) : Bool :=
  v.major < w.major || (v.major == w.major && v.minor ≤ w.minor)

def text (v : Version) : String :=
  toString v.major ++ "." ++ toString v.minor

/-- The text that could not be read as a version. -/
structure Error where
  text : String
  deriving DecidableEq, Repr

def Error.message (e : Error) : String :=
  "invalid version '" ++ e.text ++ "' (expected MAJOR.MINOR)"

/-- The greatest part of a version. -/
def maxPart : Nat := UInt32.size - 1

/-- Reads two counts with a dot between them, and white space around. -/
def parse (s : String) : Except Error Version :=
  let chars := (Text.trim s).toList
  match chars.dropWhile (· ≠ '.') with
  | [] => .error ⟨s⟩
  | _ :: rest =>
    match readCount maxPart (String.ofList (chars.takeWhile (· ≠ '.'))),
        readCount maxPart (String.ofList rest) with
    | .ok major, .ok minor => .ok ⟨major, minor⟩
    | _, _ => .error ⟨s⟩

end Version

/-- What a version can do. -/
structure Capabilities where
  /-- The number of rows can be asked for as a result. -/
  rowCount : Bool
  /-- A query can be explained with a format and options. -/
  explainOptions : Bool
  /-- Inserting gives back columns of the new rows, and not their identifiers only. -/
  insertReturning : Bool
  deriving DecidableEq, Repr

def Version.capabilities (v : Version) : Capabilities where
  rowCount := Version.le ⟨5, 2⟩ v
  explainOptions := Version.le ⟨4, 0⟩ v
  insertReturning := Version.le ⟨3, 0⟩ v

end PathQuery
