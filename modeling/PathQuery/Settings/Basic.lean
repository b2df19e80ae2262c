import PathQuery.Json.Decode
import PathQuery.Settings.Version
/-!
# Settings

What can be configured, the rules that settings have to obey, and the sources they come from: a JSON
object, the environment, and overrides on top of either.
-/

namespace PathQuery

/-- Tables whose queries always leave out the root's table. -/
def defaultMinimalTables : List String :=
  ["ContentDocumentLink", "ContentFolderItem", "ContentFolderMember", "IdeaComment", "Vote"]

structure Settings where
  /-- Leave out the root's table in every query. -/
  minimal : Bool := false
  minimalTables : List String := defaultMinimalTables
  /-- Fail on fragments that are not understood. -/
  strict : Bool := false
  /-- Rows that are fetched at a time. -/
  chunkSize : Nat := 100
  version : Version := .latest
  deriving Inhabited

/-- A rule that settings break. -/
inductive Problem
  | chunkSize
  | minimalTables
  deriving DecidableEq, Repr

def Problem.field : Problem → String
  | .chunkSize => "chunk_size"
  | .minimalTables => "minimal_alias_tables"

def Problem.message : Problem → String
  | .chunkSize => "Chunk size must be between 1 and 2000"
  | .minimalTables => "table names cannot be empty or contain whitespace"

/-- Why a setting cannot be read. -/
inductive Cause
  | notBoolean
  | notCount (e : NumberError)
  | notVersion (e : Version.Error)
  deriving DecidableEq, Repr

def Cause.message : Cause → String
  | .notBoolean => "provided string was not `true` or `false`"
  | .notCount e => e.message
  | .notVersion e => e.message

inductive SettingsError
  /-- A variable of the environment cannot be read. -/
  | unreadable (name value : String) (cause : Cause)
  /-- There is no such file. -/
  | noFile
  /-- The file does not hold settings. -/
  | malformed
  /-- The settings break rules. -/
  | invalid (problems : List Problem)
  deriving DecidableEq, Repr

namespace Settings

def capabilities (s : Settings) : Capabilities :=
  s.version.capabilities

/-! ### Rules -/

def maxChunkSize : Nat := 2000

def isTableName (name : String) : Bool :=
  !name.isEmpty && !name.toList.any Text.isBlank

/-- The rules that are broken, in the order of their fields' names. -/
def problems (s : Settings) : List Problem :=
  (if 1 ≤ s.chunkSize ∧ s.chunkSize ≤ maxChunkSize then [] else [.chunkSize]) ++
    (if s.minimalTables.all isTableName then [] else [.minimalTables])

def validate (s : Settings) : Except SettingsError Settings :=
  if s.problems.isEmpty then .ok s else .error (.invalid s.problems)

/-! ### JSON -/

def toJson (s : Settings) : Json :=
  .object [("minimal_aliases", .bool s.minimal),
    ("minimal_alias_tables", .list (s.minimalTables.map .text)),
    ("strict_fragments", .bool s.strict),
    ("chunk_size", .ofNat s.chunkSize),
    ("target_version", .text s.version.text)]

def versionOfJson? (j : Json) : Option Version :=
  j.text?.bind fun text => (Version.parse text).toOption

/-- Absent members take their defaults. The rules are not checked. -/
def ofJson? (j : Json) : Option Settings := do
  let members ← j.fields?
    ["minimal_aliases", "minimal_alias_tables", "strict_fragments", "chunk_size", "target_version"]
  let d : Settings := {}
  let minimal ← Json.defaulted? members "minimal_aliases" d.minimal Json.bool?
  let minimalTables ←
    Json.defaulted? members "minimal_alias_tables" d.minimalTables (Json.listOf? Json.text?)
  let strict ← Json.defaulted? members "strict_fragments" d.strict Json.bool?
  let chunkSize ← Json.defaulted? members "chunk_size" d.chunkSize fun j => j.word?.map UInt64.toNat
  let version ← Json.defaulted? members "target_version" d.version versionOfJson?
  return { minimal, minimalTables, strict, chunkSize, version }

/-! ### Environment -/

def readBool (text : String) : Except Cause Bool :=
  if text = "true" then .ok true
  else if text = "false" then .ok false
  else .error .notBoolean

/-- The value of a variable, or the default if it is not set. -/
def readVariable {α : Type} (environment : String → Option String) (name : String) (fallback : α)
    (read : String → Except Cause α) : Except SettingsError α :=
  match environment name with
  | none => .ok fallback
  | some value => (read value).mapError (.unreadable name value)

def variableNames : List String :=
  ["SOQL_MINIMAL_ALIASES", "SOQL_STRICT_FRAGMENTS", "SOQL_CHUNK_SIZE", "SOQL_TARGET_VERSION"]

def ofEnvironment (environment : String → Option String) : Except SettingsError Settings := do
  let d : Settings := {}
  let minimal ← readVariable environment "SOQL_MINIMAL_ALIASES" d.minimal readBool
  let strict ← readVariable environment "SOQL_STRICT_FRAGMENTS" d.strict readBool
  let chunkSize ← readVariable environment "SOQL_CHUNK_SIZE" d.chunkSize fun text =>
    (readCount Decimal.maxWord text).mapError .notCount
  let version ← readVariable environment "SOQL_TARGET_VERSION" d.version fun text =>
    (Version.parse text).mapError .notVersion
  validate { d with minimal, strict, chunkSize, version }

end Settings

/-! ### Overrides -/

/-- Settings that take precedence over those that were loaded. -/
structure Overrides where
  minimal : Bool := false
  strict : Bool := false
  chunkSize : Option Nat := none
  version : Option Version := none
  deriving Inhabited

def Settings.override (s : Settings) (o : Overrides) : Settings :=
  { s with
    minimal := s.minimal || o.minimal
    strict := s.strict || o.strict
    chunkSize := o.chunkSize.getD s.chunkSize
    version := o.version.getD s.version }

end PathQuery
