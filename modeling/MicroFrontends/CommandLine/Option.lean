/-!
# Options

`Opt` lists the options that a call may have, in the order in which they are documented, with their
names, the names of their values, and what their values may look like.
-/

namespace MicroFrontends.CommandLine

/-- An option. -/
inductive Opt where
  | config
  | list
  | context
  | selector
  | pageSelector
  | basePath
  | location
  | invalidSelector
  | html
  | extraAttribute
  | outputFormat
  | check
  | shellCompletions
  | help
  | version
deriving DecidableEq, Repr

namespace Opt

def all : List Opt :=
  [config, list, context, selector, pageSelector, basePath, location, invalidSelector, html,
    extraAttribute, outputFormat, check, shellCompletions, help, version]

/-- The name, which stands after two hyphens. -/
def long : Opt → String
  | config => "config"
  | list => "list"
  | context => "context"
  | selector => "selector"
  | pageSelector => "page-selector"
  | basePath => "base-path"
  | location => "location"
  | invalidSelector => "invalid-selector"
  | html => "html"
  | extraAttribute => "attribute"
  | outputFormat => "output-format"
  | check => "check"
  | shellCompletions => "shell-completions"
  | help => "help"
  | version => "version"

/-- The letter that stands for the option after one hyphen. -/
def short? : Opt → Option Char
  | list => some 'l'
  | context => some 'c'
  | selector => some 's'
  | extraAttribute => some 'a'
  | outputFormat => some 'o'
  | help => some 'h'
  | version => some 'V'
  | _ => none

/-- What messages call the option's value, if it takes one. -/
def valueName? : Opt → Option String
  | config => some "FILE"
  | list => some "LIST"
  | context => some "CONTEXT"
  | selector => some "SELECTOR"
  | pageSelector => some "PAGE_SELECTOR"
  | basePath => some "BASE_PATH"
  | location => some "LOCATION"
  | invalidSelector => some "INVALID_SELECTOR"
  | extraAttribute => some "NAME=VALUE"
  | outputFormat => some "OUTPUT_FORMAT"
  | check => some "SELECTOR"
  | shellCompletions => some "SHELL"
  | html | help | version => none

/-- The option with its value, as messages show it. -/
def usage (o : Opt) : String :=
  "--" ++ o.long ++ (o.valueName?.map fun v => " <" ++ v ++ ">").getD ""

/-- What the option is for. -/
def summary : Opt → String
  | config => "File with settings, may be repeated, - drops all files before it"
  | list => "What to list: apps, contexts, preload, shell or user"
  | context => "Context of --list=contexts and --list=shell"
  | selector => "Label selector, may be repeated to narrow the result further"
  | pageSelector => "Selector that every listing passes first"
  | basePath => "Path under which the application shell is served"
  | location => "Location that marks applications as active"
  | invalidSelector => "What to do with invalid selectors: fail, match-none or match-all"
  | html => "Write listed elements as HTML"
  | extraAttribute => "Attribute for elements written as HTML, may be repeated"
  | outputFormat => "Output format: text or json"
  | check => "Write the canonical form of a selector"
  | shellCompletions => "Write completions for a shell: bash, elvish, fish, powershell or zsh"
  | help => "Write this help"
  | version => "Write the version"

/-- The variable whose value is used if the option is not given. -/
def environmentName? : Opt → Option String
  | pageSelector => some "UFE_PAGE_SELECTOR"
  | basePath => some "UFE_BASE_PATH"
  | invalidSelector => some "UFE_INVALID_SELECTOR"
  | outputFormat => some "UFE_OUTPUT_FORMAT"
  | _ => none

/-- The argument after the option is its value even if it starts with a hyphen. -/
def takesHyphens : Opt → Bool
  | selector | pageSelector | check => true
  | _ => false

/-- The option may be given more than once. -/
def isRepeatable : Opt → Bool
  | check | shellCompletions => false
  | _ => true

def ofLong? (name : String) : Option Opt := all.find? (·.long = name)

def ofShort? (letter : Char) : Option Opt := all.find? (·.short? = some letter)

end Opt

/-- What messages call the catalog that a call may name. -/
def catalogUsage : String := "[CATALOG]"

end MicroFrontends.CommandLine
