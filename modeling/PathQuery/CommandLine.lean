import PathQuery.Compiler
import PathQuery.Json.Reader
import PathQuery.Json.Writer
import PathQuery.Plan.Codec
import PathQuery.Settings.EnvFile
import PathQuery.Settings.File
/-!
# The command line

The command reads a plan and prints its query, with the values of the placeholders, or a JSON object that
holds both. Settings come from a file that is named, or else from the environment, which a file `.env`
completes; options of the command take precedence over either.
-/

namespace PathQuery

/-- The command with its arguments. -/
structure Command where
  plan : String
  config : Option String := none
  minimal : Bool := false
  strict : Bool := false
  noLimits : Bool := false
  columnNames : Bool := false
  version : Option Version := none
  inTransaction : Bool := false
  json : Bool := false

namespace Command

/-- Why a list of arguments makes no command. -/
inductive Refusal
  /-- An argument is faulty, or the plan is missing. -/
  | usage
  /-- A text about the command is asked for. -/
  | help
  deriving DecidableEq, Repr

/-- Arguments on the way: what was given so far. -/
structure Given where
  plan : Option String := none
  config : Option String := none
  version : Option Version := none
  switches : List String := []

def switchNames : List String :=
  ["--minimal-aliases", "--strict", "--no-limits", "--col-aliases", "--in-transaction", "--json"]

def valueNames : List String :=
  ["--config", "--target-version"]

/-- Whether an argument is taken for an option: it starts with a dash and is not a dash alone. -/
def looksLikeOption (arg : String) : Bool :=
  match arg.toList with
  | '-' :: _ :: _ => true
  | _ => false

/-- Whether an argument asks for a text about the command or for its version. Of several letters behind
one dash the first decides. -/
def asksForHelp (arg : String) : Bool :=
  arg = "--help" || arg = "--version" ||
    match arg.toList with
    | '-' :: 'h' :: _ => true
    | '-' :: 'V' :: _ => true
    | _ => false

namespace Given

/-- Takes the plan, of which there is one. -/
def addPlan? (g : Given) (path : String) : Option Given :=
  if g.plan.isSome ∨ path.isEmpty then none else some { g with plan := some path }

def addSwitch? (g : Given) (name : String) : Option Given :=
  if g.switches.contains name then none else some { g with switches := name :: g.switches }

def addValue? (g : Given) (name value : String) : Option Given :=
  if name = "--config" then
    if g.config.isSome ∨ value.isEmpty then none else some { g with config := some value }
  else if g.version.isSome then none
  else (Version.parse value).toOption.map fun version => { g with version := some version }

end Given

/-- An option with its value behind an equals sign. -/
def splitEquals (arg : String) : Option (String × String) :=
  match arg.toList.dropWhile (· ≠ '=') with
  | _ :: value => some (String.ofList (arg.toList.takeWhile (· ≠ '=')), String.ofList value)
  | [] => none

/-- Takes an argument that needs no other one behind it. -/
def takeOne? (g : Given) (arg : String) : Option Given :=
  if switchNames.contains arg then g.addSwitch? arg
  else if looksLikeOption arg then do
    let (name, value) ← splitEquals arg
    if valueNames.contains name then g.addValue? name value else none
  else g.addPlan? arg

def orUsage {α : Type} : Option α → Except Refusal α
  | some a => .ok a
  | none => .error .usage

/-- Takes the arguments one after the other; the first one that is faulty or asks for help decides. An
option is given once at most, and after two dashes there are no options. -/
def collect (g : Given) : List String → Except Refusal Given
  | [] => .ok g
  | [arg] =>
    if arg = "--" then .ok g
    else if asksForHelp arg then .error .help
    else orUsage (takeOne? g arg)
  | arg :: value :: rest => do
    if arg = "--" then orUsage ((value :: rest).foldlM Given.addPlan? g)
    else if asksForHelp arg then .error .help
    else if valueNames.contains arg then
      if looksLikeOption value then .error .usage
      else collect (← orUsage (g.addValue? arg value)) rest
    else collect (← orUsage (takeOne? g arg)) (value :: rest)

/-- The command of a list of arguments: a plan, and options. -/
def ofArgs (args : List String) : Except Refusal Command := do
  let g ← collect {} args
  let plan ← orUsage g.plan
  return {
    plan
    config := g.config
    version := g.version
    minimal := g.switches.contains "--minimal-aliases"
    strict := g.switches.contains "--strict"
    noLimits := g.switches.contains "--no-limits"
    columnNames := g.switches.contains "--col-aliases"
    inTransaction := g.switches.contains "--in-transaction"
    json := g.switches.contains "--json" }

/-- What the command ends with. -/
structure Outcome where
  exitCode : UInt32
  output : String := ""
  error : Option String := none

def Outcome.failure (message : String) : Outcome :=
  { exitCode := 1, error := some message }

/-- The first line of a text, without its end. -/
def firstLine (text : String) : String :=
  let line := text.toList.takeWhile (· ≠ '\n')
  String.ofList (if line.length < text.length ∧ line.getLast? = some '\r' then line.dropLast else line)

/-- The line that tells the error. -/
def Outcome.errorLine (o : Outcome) : Option String :=
  o.error.map firstLine

/-- What the command finds around it. -/
structure Surroundings where
  environment : Environment
  /-- The text of the environment file, if there is one. -/
  envFile : Option String := none
  /-- The text of a file, if there is such a file. -/
  file : String → Option String

/-- The environment as its file completes it. -/
def Surroundings.complete? (s : Surroundings) : Option Surroundings :=
  match s.envFile with
  | none => some s
  | some text => (s.environment.load? text).map fun environment => { s with environment }

/-- The settings that the command asks for; an error is told by where they come from. -/
def settings (c : Command) (s : Surroundings) : Except String Settings :=
  let loaded := match c.config with
    | some path => (Settings.ofFile (s.file path)).mapError fun _ => "loading " ++ path
    | none => (Settings.ofEnvironment s.environment).mapError fun _ => "reading SOQL_* environment"
  loaded.map fun settings =>
    settings.override { minimal := c.minimal, strict := c.strict, version := c.version }

def queryText (sql : Sql) : String :=
  if sql.isEmpty then "-- query matches no rows, nothing to send\n"
  else
    sql.text ++ "\n" ++
      if sql.params.isEmpty then ""
      else "-- params: [" ++ Text.joinWith ", " (sql.params.map Value.display) ++ "]\n"

def queryJson (sql : Sql) (warnings : List Warning) : Json :=
  .object [("sql", .text sql.text), ("params", paramsToJson sql.params),
    ("empty", .bool sql.isEmpty), ("warnings", .list (warnings.map fun w => .text w.message))]

/-- Compiles a plan as the command asks. -/
def compile (c : Command) (settings : Settings) (plan : Plan) : Outcome :=
  let backend := Backend.soql {} (!c.inTransaction)
  let compiler : Compiler := { context := .of backend settings, plan }
  let (report, _) := compiler.compile { limits := !c.noLimits, columnNames := c.columnNames }
  match report.result with
  | .error e => .failure e.message
  | .ok sql =>
    if c.json then { exitCode := 0, output := (queryJson sql report.warnings).pretty ++ "\n" }
    else { exitCode := 0, output := queryText sql }

def run (c : Command) (s : Surroundings) : Outcome :=
  match c.settings s with
  | .error message => .failure message
  | .ok settings =>
    match s.file c.plan with
    | none => .failure ("reading " ++ c.plan)
    | some text =>
      match (Json.parse? text).bind Plan.ofJson? with
      | none => .failure ("parsing query plan " ++ c.plan)
      | some plan => c.compile settings plan

/-- Runs the command of a list of arguments. Arguments that make no command end it with 2, unless they ask
for help, and an environment that cannot be completed with 101. -/
def runArgs (args : List String) (s : Surroundings) : Outcome :=
  match s.complete? with
  | none => { exitCode := 101 }
  | some s =>
    match ofArgs args with
    | .error .usage => { exitCode := 2 }
    | .error .help => { exitCode := 0 }
    | .ok c => c.run s

end Command

end PathQuery
