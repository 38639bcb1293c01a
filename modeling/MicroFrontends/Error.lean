import MicroFrontends.Json.Error
import MicroFrontends.Settings.Error
import MicroFrontends.Text.Terminal

/-!
# What can go wrong

* `ProgramError` : every error that ends a command;
* `ProgramError.message` : what is wrong;
* `ProgramError.report` : what is shown to the user, the message and then advice, unless showing it
  breaks off (`ProgramError.breaksOff`).
-/

namespace MicroFrontends

/-- Why a command cannot be carried out. -/
inductive ProgramError where
  /-- A file cannot be read. -/
  | io (text : String)
  | settings (error : SettingsError)
  /-- A document is no catalog. -/
  | catalog (origin : String) (error : JsonError)
  | fileNotFound (path : String)
  /-- A text is no selector. -/
  | selector (text : String) (error : SelectorError)
  /-- The result cannot be written down. -/
  | output (text : String)
  /-- The user has no directory for configuration files. -/
  | noUserDirectory
deriving DecidableEq, Repr

namespace ProgramError

def message : ProgramError → String
  | io text => text
  | settings error => "failed to load configuration: " ++ error.message
  | catalog origin error =>
    "failed to parse catalog " ++ Text.highlight origin ++ ": " ++ error.message
  | fileNotFound path => "file " ++ Text.highlight path ++ " not found"
  | selector text error => "invalid selector " ++ Text.highlight text ++ ": " ++ error.message
  | output text => "failed to serialize output: " ++ text
  | noUserDirectory => "failed to locate user configuration directory"

/-- Advice about an error, in lines of its own. -/
def tips : ProgramError → String
  | selector text error =>
    if text.toList.contains '\n' then "" else Text.caret text error.offset
  | fileNotFound _ =>
    Text.tipLabel ++ " use " ++ Text.highlight "-" ++ " to read the catalog from stdin\n"
  | _ => ""

/-- Showing the advice breaks off before it is complete, and the program with it. -/
def breaksOff : ProgramError → Bool
  | selector text error => !text.toList.contains '\n' && !Text.canMark text error.offset
  | _ => false

/-- What is shown to the user. -/
def report (e : ProgramError) : String := Text.errorLabel ++ " " ++ e.message ++ "\n" ++ e.tips

end ProgramError

end MicroFrontends
