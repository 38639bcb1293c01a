import MicroFrontends.CommandLine.Error
import MicroFrontends.CommandLine.Option
import MicroFrontends.Registry.Report
import MicroFrontends.Settings.Basic
import MicroFrontends.Text.Fields

/-!
# Arguments

* `Arguments` : what the arguments of a call say;
* `Arguments.put` : adds the value of an option;
* `Options` : what a call asks for, once settings have filled in what its arguments leave open.
-/

namespace MicroFrontends.CommandLine

/-- A shell that can complete the program's arguments. -/
inductive Shell where
  | bash
  | elvish
  | fish
  | powershell
  | zsh
deriving DecidableEq, Repr

namespace Shell

def name : Shell → String
  | bash => "bash"
  | elvish => "elvish"
  | fish => "fish"
  | powershell => "powershell"
  | zsh => "zsh"

/-- All shells with their names. -/
def variants : List (String × Shell) :=
  [bash, elvish, fish, powershell, zsh].map fun s => (s.name, s)

end Shell

/-- What the arguments of a call say. -/
structure Arguments where
  config : List String := []
  list : Option ListKind := none
  context : Option String := none
  selectors : List String := []
  pageSelector : Option String := none
  basePath : Option String := none
  location : Option String := none
  invalidSelector : Option InvalidSelectorPolicy := none
  html : Bool := false
  attributes : List Attribute := []
  outputFormat : Option OutputFormat := none
  check : Option String := none
  shellCompletions : Option Shell := none
  catalog : Option String := none

namespace Arguments

/-- The option was given. -/
def has (a : Arguments) : Opt → Bool
  | .config => !a.config.isEmpty
  | .list => a.list.isSome
  | .context => a.context.isSome
  | .selector => !a.selectors.isEmpty
  | .pageSelector => a.pageSelector.isSome
  | .basePath => a.basePath.isSome
  | .location => a.location.isSome
  | .invalidSelector => a.invalidSelector.isSome
  | .html => a.html
  | .extraAttribute => !a.attributes.isEmpty
  | .outputFormat => a.outputFormat.isSome
  | .check => a.check.isSome
  | .shellCompletions => a.shellCompletions.isSome
  | .help | .version => false

/-- The value that one of several names stands for. -/
def choose {α : Type} (o : Opt) (variants : List (String × α)) (name : String) :
    Except UsageError α :=
  match variants.lookup name with
  | some v => .ok v
  | none => .error (if name = "" then .missingValue o.usage else .invalidValue name o.usage)

/-- The attribute of a name, which is not empty, an equals sign and a value. -/
def readAttribute (o : Opt) (s : String) : Except UsageError Attribute :=
  match Text.firstField? '=' s.toList with
  | some (c :: name, value) => .ok ⟨String.ofList (c :: name), .string (String.ofList value)⟩
  | _ => .error (.malformedValue s o.usage ("expected NAME=VALUE, found " ++ Text.quote s))

/-- Adds the value of an option. Options that take no value are not changed. -/
def put (a : Arguments) (o : Opt) (v : String) : Except UsageError Arguments :=
  match o with
  | .config => .ok { a with config := a.config ++ [v] }
  | .list => do return { a with list := some (← choose o ListKind.variants v) }
  | .context => .ok { a with context := some v }
  | .selector => .ok { a with selectors := a.selectors ++ [v] }
  | .pageSelector => .ok { a with pageSelector := some v }
  | .basePath => .ok { a with basePath := some v }
  | .location => .ok { a with location := some v }
  | .invalidSelector => do
    return { a with invalidSelector := some (← choose o InvalidSelectorPolicy.variants v) }
  | .extraAttribute => do return { a with attributes := a.attributes ++ [← readAttribute o v] }
  | .outputFormat => do
    return { a with outputFormat := some (← choose o OutputFormat.variants v) }
  | .check => .ok { a with check := some v }
  | .shellCompletions => do
    return { a with shellCompletions := some (← choose o Shell.variants v) }
  | .html | .help | .version => .ok a

/-- Adds the value of an option's variable if the option was not given. -/
def putVariable (environment : Dict String) (a : Arguments) (o : Opt) :
    Except UsageError Arguments :=
  match o.environmentName?.bind environment.get? with
  | some v => if a.has o then .ok a else a.put o v
  | none => .ok a

/-- Adds the values of variables for options that were not given. -/
def putVariables (environment : Dict String) (a : Arguments) : Except UsageError Arguments :=
  Opt.all.foldlM (putVariable environment) a

end Arguments

/-- What a call asks for. -/
structure Options where
  list : ListKind
  context : Option String
  selectors : List String
  pageSelector : String
  basePath : String
  location : String
  invalidSelector : InvalidSelectorPolicy
  html : Bool
  attributes : List Attribute
  outputFormat : OutputFormat
  check : Option String
  shellCompletions : Option Shell
  catalog : Option String
  config : List String

/-- What a call with these arguments asks for. -/
def Arguments.complete (a : Arguments) (settings : Settings) : Options where
  list := a.list.getD .apps
  context := a.context
  selectors := a.selectors
  pageSelector := a.pageSelector.getD settings.pageSelector.render
  basePath := a.basePath.getD settings.basePath
  location := a.location.getD "/"
  invalidSelector := a.invalidSelector.getD settings.invalidSelector
  html := a.html
  attributes := a.attributes
  outputFormat := a.outputFormat.getD .text
  check := a.check
  shellCompletions := a.shellCompletions
  catalog := a.catalog
  config := a.config

end MicroFrontends.CommandLine
