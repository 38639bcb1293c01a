import MicroFrontends.Error
import MicroFrontends.Policy

/-!
# The log

* `LogEntry` : what the program notes while it works, with its `level`, `origin` and `message`;
* `Logged α` : the result of a step that may fail, and the entries that the step wrote. A step that
  fails keeps the entries that it wrote before.
-/

namespace MicroFrontends

/-- How much an entry matters. -/
inductive LogLevel where
  | warn
  | debug
deriving DecidableEq, Repr

/-- The word that stands before an entry's message. -/
def LogLevel.name : LogLevel → String
  | warn => "WARN"
  | debug => "DEBUG"

/-- Something worth noting. -/
inductive LogEntry where
  | started
  /-- There is no directory with the user's own settings. -/
  | noUserFile
  /-- A file with settings is to be read. -/
  | settingsFile (path : String) (isRequired : Bool)
  | catalogRead (path : String) (bytes : Nat)
  /-- A caller's selector cannot be parsed, and the policy says how to go on. -/
  | invalidSelector (policy : InvalidSelectorPolicy) (text : String) (error : SelectorError)
  /-- A registry was set up. -/
  | registry (apps contexts : Nat) (basePath pageSelector : String)
  /-- There is no shell for a context. -/
  | noShell (context : String)
  /-- A listing is made; the kind is the name of what is listed. -/
  | listing (kind : String) (selectors : List String)
deriving DecidableEq, Repr

namespace LogEntry

def level : LogEntry → LogLevel
  | invalidSelector _ _ _ | noUserFile => .warn
  | _ => .debug

/-- The part of the program that an entry is from. -/
def origin : LogEntry → String
  | started => "ufe"
  | noUserFile => "ufe::config"
  | settingsFile _ _ => "ufe::settings"
  | catalogRead _ _ => "ufe::model"
  | invalidSelector _ _ _ => "ufe::filtering"
  | registry _ _ _ _ | noShell _ => "ufe::registry"
  | listing _ _ => "ufe::app"

def message : LogEntry → String
  | started => "logging initialized"
  | noUserFile => "skipped user configuration: " ++ ProgramError.noUserDirectory.message
  | settingsFile path isRequired =>
    "added configuration file " ++ path ++ " (required=" ++
      (if isRequired then "true" else "false") ++ ")"
  | catalogRead path bytes =>
    "loaded catalog from " ++ path ++ " (" ++ toString bytes ++ " bytes)"
  | invalidSelector policy text error =>
    policy.name ++ ": ignoring " ++
      (if policy = .matchNone then "entries due to invalid selector " else "invalid selector ") ++
      Text.quote text ++ ": " ++ error.message
  | registry apps contexts basePath pageSelector =>
    "registry: " ++ toString apps ++ " apps, " ++ toString contexts ++ " contexts, base path " ++
      Text.quote basePath ++ ", page selector " ++ Text.quote pageSelector
  | noShell context =>
    "no shell registered for context " ++ Text.quote context ++ ", using default"
  | listing kind selectors =>
    "listing " ++ kind ++ " with selectors [" ++ ", ".intercalate (selectors.map Text.quote) ++ "]"

/-- The entry with its level. -/
def render (e : LogEntry) : String := e.level.name ++ " " ++ e.message

/-- The entry with its level and the part of the program that it is from. -/
def renderWithOrigin (e : LogEntry) : String :=
  "[" ++ e.level.name ++ " " ++ e.origin ++ "] " ++ e.message

end LogEntry

/-- The result of a step and what it noted. -/
structure Logged (α : Type) where
  result : Except ProgramError α
  log : List LogEntry

namespace Logged

variable {α β : Type}

/-- A result that nothing was noted for. -/
def ofExcept (result : Except ProgramError α) : Logged α := ⟨result, []⟩

/-- Notes one entry. -/
def note (entry : LogEntry) : Logged Unit := ⟨.ok (), [entry]⟩

/-- One step and then another that depends on its result. -/
def andThen (x : Logged α) (f : α → Logged β) : Logged β :=
  match x.result with
  | .ok a => ⟨(f a).result, x.log ++ (f a).log⟩
  | .error e => ⟨.error e, x.log⟩

instance : Monad Logged where
  pure a := ⟨.ok a, []⟩
  bind := andThen

/-- The entries that are at least warnings. -/
def warnings (x : Logged α) : List LogEntry := x.log.filter (·.level = .warn)

end Logged

end MicroFrontends
