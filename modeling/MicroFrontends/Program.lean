import MicroFrontends.Catalog.Load
import MicroFrontends.CommandLine.Help
import MicroFrontends.CommandLine.Parser
import MicroFrontends.Log.Filter
import MicroFrontends.Settings.UserFiles

/-!
# The program

`Program.run` is a whole call: it reads settings, arguments and a catalog, and says what the call
writes and with which code it ends. `Program.paths` and `Program.readsInput` say what of its
surroundings a call may look at.
-/

namespace MicroFrontends

/-- All that a call depends on, its arguments aside. -/
structure Surroundings where
  environment : Dict String
  /-- The user's directory for configuration files. -/
  configDirectory : Option String
  files : Files
  input : Document

/-- What a call does. -/
structure Outcome where
  code : Nat
  output : String
  errors : String
deriving DecidableEq, Repr

namespace Program

open CommandLine

/-- The variable that says which entries of the log are shown. -/
def logVariable : String := "UFE_DEBUG_LOG"

/-- What messages call the standard input. -/
def inputName : String := "<stdin>"

/-- A path means the standard input. -/
def isInput (path : String) : Bool := path.toList.head? = some '-' && tidyPath path = "-"

variable (w : Surroundings)

/-- The user's own file with settings. -/
def ownFile? : Option String := userFile? w.environment w.configDirectory

/-- Notes that a source is to be read, if it is a file. -/
def noteSource : Source → Logged Unit
  | .file path isOptional => Logged.note (.settingsFile path (!isOptional))
  | .text _ _ => pure ()

/-- The settings from the user's own file and others. -/
def readSettings (names : List String) : Logged Settings := do
  let choice := FileChoice.ofNames names
  if choice.readsUserFile && (ownFile? w).isNone then Logged.note .noUserFile
  let sources := choice.sources (ownFile? w)
  sources.forM noteSource
  .ofExcept ((Settings.load w.files sources).mapError .settings)

/-- The catalog in a file. -/
def loadCatalog (path : String) : Logged Catalog := do
  match w.files path with
  | .content d => Logged.note (.catalogRead path d.size)
  | _ => pure ()
  .ofExcept (Catalog.load w.files path)

/-- The catalog that a call names, or else the one on the standard input. -/
def readCatalog (path? : Option String) : Logged Catalog :=
  match path?.filter (!isInput ·) with
  | some path => loadCatalog w path
  | none => .ofExcept (Catalog.read inputName w.input)

/-- What is asked of the registry. -/
def reportOptions (settings : Settings) (o : Options) : ReportOptions where
  list := o.list
  context := o.context.getD settings.shellContext
  selectors := o.selectors
  location := o.location
  html := o.html
  attributes := o.attributes
  format := o.outputFormat

/-- Writes the report that a call asks for. -/
def report (settings : Settings) (o : Options) : Logged String := do
  let page ← .ofExcept ((Selector.parse o.pageSelector).mapError (.selector o.pageSelector))
  let catalog ← readCatalog w o.catalog
  let registry ← Registry.create catalog ⟨o.basePath, page, o.invalidSelector⟩
  Report.run registry (reportOptions settings o)

/-- Writes what a call asks for. -/
def answer (settings : Settings) (o : Options) : Logged String :=
  match o.shellCompletions, o.check with
  | some shell, _ => pure (completions shell)
  | none, some text => .ofExcept (checkSelector text o.outputFormat)
  | none, none => report w settings o

/-- The entries of the log that are shown. -/
def shownLog (log : List LogEntry) : String :=
  match w.environment.get? logVariable with
  | some rules => lines ((log.filter (LogFilter.ofText rules).shows).map LogEntry.renderWithOrigin)
  | none => ""

/-- The code of a call that ends with an error. -/
def errorCode (e : ProgramError) : Nat := if e.breaksOff then 101 else 1

/-- The outcome of a step that has written its whole result. -/
def outcome (step : Logged String) : Outcome :=
  match step.result with
  | .ok output => ⟨0, output, shownLog w step.log⟩
  | .error e => ⟨errorCode e, "", shownLog w step.log ++ e.report⟩

/-- What a call with some arguments does. -/
def run (arguments : List String) : Outcome :=
  let settings : Logged Settings := do
    Logged.note .started
    readSettings w (settingsFiles arguments)
  let written (output : String) : Outcome := outcome w (do let _ ← settings; return output)
  match settings.result with
  | .error _ => written ""
  | .ok s =>
    match parse w.environment arguments with
    | .error .help => written helpText
    | .error .version => written versionText
    | .error (.misuse e) => ⟨2, "", shownLog w settings.log ++ e.headline ++ "\n"⟩
    | .ok a => outcome w (do answer w (← settings) (a.complete s))

/-! ## What a call looks at -/

/-- What the arguments say, if they are valid. -/
def arguments? (environment : Dict String) (arguments : List String) : Option Arguments :=
  (parse environment arguments).toOption

/-- The paths at which a call may look for a file with settings. -/
def settingsPaths (path : String) : List String :=
  path :: Format.extensions.filterMap fun e => withExtension? path e.1

/-- The paths of all files that a call may look at. -/
def paths (environment : Dict String) (configDirectory : Option String) (arguments : List String) :
    List String :=
  let named := settingsFiles arguments ++ (userFile? environment configDirectory).toList
  named.flatMap settingsPaths ++
    ((arguments? environment arguments).bind Arguments.catalog).toList

/-- The call reads the standard input. -/
def readsInput (environment : Dict String) (arguments : List String) : Bool :=
  match arguments? environment arguments with
  | some a => a.check.isNone && a.shellCompletions.isNone && a.catalog.all isInput
  | none => false

end Program

end MicroFrontends
