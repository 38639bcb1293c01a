import MicroFrontends.Program

/-!
# The command line

`main` looks at the files, the variables and the input that a call needs, and does what
`Program.run` says.
-/

open MicroFrontends

/-- The variables that a call looks at. -/
def variableNames : List String :=
  [userFileVariable, Program.logVariable] ++
    CommandLine.Opt.all.filterMap CommandLine.Opt.environmentName?

/-- The variables that are set. -/
def readVariables : IO (Dict String) := do
  let entries ← variableNames.filterMapM fun name => do
    return (← IO.getEnv name).map fun v => (name, v)
  return .ofEntries entries

/-- The user's directory for configuration files. -/
def readConfigDirectory : IO (Option String) := do
  let named := (← IO.getEnv "XDG_CONFIG_HOME").filter fun path => path.toList.head? = some '/'
  return named.or ((← IO.getEnv "HOME").map (· ++ "/.config"))

/-- What the system says about an error, whose code may come negated. -/
def reasonOf : IO.Error → String
  | .inappropriateType _ code details | .permissionDenied _ code details =>
    details.capitalize ++ " (os error " ++ toString (min code (-code)) ++ ")"
  | e => toString e

/-- There is a regular file at a path. -/
def isFile (path : String) : IO Bool := do
  try
    return (← (← IO.FS.realPath path).metadata).type == .file
  catch
    | _ => return false

/-- What there is at a path. -/
def readFile (path : String) : IO FileState := do
  try
    return .content (.ofBytes (← IO.FS.readBinFile path))
  catch
    | .noFileOrDirectory .. => return .missing
    | e => return if ← isFile path then .unreadable (reasonOf e) else .notFile (reasonOf e)

/-- All of the standard input. -/
def readInput : IO Document := do
  return .ofBytes (← (← IO.getStdin).readBinToEnd)

def main (arguments : List String) : IO UInt32 := do
  let environment ← readVariables
  let configDirectory ← readConfigDirectory
  let states ← (Program.paths environment configDirectory arguments).mapM fun path => do
    return (path, ← readFile path)
  let input ← if Program.readsInput environment arguments then readInput else pure []
  let files (path : String) : FileState := (states.lookup path).getD .missing
  let outcome := Program.run ⟨environment, configDirectory, files, input⟩ arguments
  (← IO.getStdout).putStr outcome.output
  (← IO.getStderr).putStr outcome.errors
  return outcome.code.toUInt32
