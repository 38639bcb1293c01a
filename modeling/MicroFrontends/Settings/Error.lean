import MicroFrontends.Selector.Error

/-!
# What can be wrong with settings

`SettingsError` tells apart files that cannot be used, sources that are not well-formed, and values
that do not fit their key.
-/

namespace MicroFrontends

/-- Why settings cannot be had. -/
inductive SettingsError where
  /-- A required file is not there. -/
  | fileNotFound (path : String)
  /-- No known format belongs to the file's name. -/
  | unsupportedFormat (path : String)
  /-- A file cannot be read, for the reason that the system gives. -/
  | readFailure (reason : String)
  /-- A source is not well-formed, or is no table of keys and values. -/
  | unreadable
  /-- A key has a value of a wrong type, in the file `origin` if the value is from one. -/
  | wrongType (found : String) (key : String) (origin : Option String)
  /-- A key has a text that is no selector. -/
  | invalidSelector (error : SelectorError) (key : String)
  /-- A key names a policy that there is not. -/
  | unknownPolicy (name : String) (key : String)
  /-- A key has a value that cannot name a policy. -/
  | unnamedPolicy (key : String)
  /-- Anything else. -/
  | other (text : String)
deriving DecidableEq, Repr

namespace SettingsError

/-- The words that say which key an error is about. -/
def forKey (key : String) : String := " for key `" ++ key ++ "`"

def message : SettingsError → String
  | fileNotFound path => "configuration file \"" ++ path ++ "\" not found"
  | unsupportedFormat path =>
    "configuration file \"" ++ path ++ "\" is not of a supported file format"
  | readFailure reason => reason
  | unreadable => "configuration cannot be read"
  | wrongType found key origin =>
    "invalid type: " ++ found ++ ", expected a string" ++ forKey key ++
      (origin.map (" in " ++ ·)).getD ""
  | invalidSelector error key => error.message ++ forKey key
  | unknownPolicy name key =>
    "enum InvalidSelectorPolicy does not have variant constructor " ++ name ++ forKey key
  | unnamedPolicy key =>
    "value of enum InvalidSelectorPolicy should be represented by either string or table with " ++
      "exactly one key" ++ forKey key
  | other text => text

end SettingsError

end MicroFrontends
