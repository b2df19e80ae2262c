import PathQuery.CommandLine
/-! The command as a program: it reads the files that the command names and prints what it says. -/

open PathQuery

/-- The text of a file, if it can be read. -/
def readText (path : String) : IO (Option String) := do
  try
    let text ← IO.FS.readFile path
    return some text
  catch _ => return none

/-- The environment file of the working directory, or of the nearest directory above that has one. -/
def readEnvFile : IO (Option String) := do
  let depth := ((← IO.currentDir).toString.toList.filter (· == '/')).length
  (List.range (depth + 1)).findSomeM? fun n =>
    readText (String.join (List.replicate n "../") ++ ".env")

/-- Names that settings or an environment file may refer to. -/
def namesIn (text : String) : List String :=
  Settings.variableNames ++ text.splitToList (fun c => !(c.isAlphanum || c == '_' || c == '.')) ++
    text.splitToList (fun c => !c.isAlphanum)

def usage : String :=
  "Usage: PLAN [--config FILE] [--target-version VERSION] [--minimal-aliases] [--strict]\n" ++
    "  [--no-limits] [--col-aliases] [--in-transaction] [--json]"

def main (args : List String) : IO UInt32 := do
  let envFile ← readEnvFile
  let known ← (namesIn (envFile.getD "")).filterMapM fun name => do
    return (← IO.getEnv name).map (name, ·)
  let paths ← match Command.ofArgs args with
    | .ok c => pure (c.plan :: c.config.toList)
    | .error .help => do
      IO.println usage
      pure []
    | .error .usage => do
      IO.eprintln usage
      pure []
  let files ← paths.filterMapM fun path => do
    return (← readText path).map (path, ·)
  let outcome := Command.runArgs args {
    environment := (known.lookup ·)
    envFile
    file := (files.lookup ·) }
  IO.print outcome.output
  if let some message := outcome.error then IO.eprintln ("Error: " ++ message)
  return outcome.exitCode
