import MicroFrontends.Text.ControlSequence
import MicroFrontends.Text.Fields

/-!
# Calls that are not valid

* `UsageError` : what is wrong with the arguments of a call;
* `Stop` : why the arguments are not worked through to the end.
-/

namespace MicroFrontends.CommandLine

/-- What is wrong with the arguments of a call. -/
inductive UsageError where
  /-- There is no such option, or one argument too many. -/
  | unexpectedArgument (argument : String)
  | missingValue (usage : String)
  /-- A value is none of those that there are. -/
  | invalidValue (value usage : String)
  /-- A value has a wrong form. -/
  | malformedValue (value usage reason : String)
  /-- A value is given to an option that takes none. -/
  | unexpectedValue (value usage : String)
  /-- An option is given again that may be given once. -/
  | repeatedOption (usage : String)
deriving DecidableEq, Repr

namespace UsageError

/-- A text between ticks, of which a terminal takes no part for a command. -/
def ticked (s : String) : String := "'" ++ String.ofList (Text.visible s.toList) ++ "'"

def message : UsageError → String
  | unexpectedArgument argument => "unexpected argument " ++ ticked argument ++ " found"
  | missingValue usage => "a value is required for " ++ ticked usage ++ " but none was supplied"
  | invalidValue value usage => "invalid value " ++ ticked value ++ " for " ++ ticked usage
  | malformedValue value usage reason =>
    "invalid value " ++ ticked value ++ " for " ++ ticked usage ++ ": " ++ reason
  | unexpectedValue value usage =>
    "unexpected value " ++ ticked value ++ " for " ++ ticked usage ++
      " found; no more were expected"
  | repeatedOption usage => "the argument " ++ ticked usage ++ " cannot be used multiple times"

/-- The first line of what is shown to the user. -/
def headline (e : UsageError) : String :=
  String.ofList (Text.firstLine ("error: " ++ e.message).toList)

end UsageError

/-- Why the arguments are not worked through to the end. -/
inductive Stop where
  | help
  | version
  | misuse (error : UsageError)
deriving DecidableEq, Repr

end MicroFrontends.CommandLine
