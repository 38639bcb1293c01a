import MicroFrontends.CommandLine.Arguments

/-!
# Reading arguments

`CommandLine.parse` works through the arguments of a call one by one. An option waits for its value,
and its value for the next option or the end: only then it is looked at, so that an argument which
is not expected at all goes before a value that is not valid.

`CommandLine.settingsFiles` is for the time before settings are known. It takes the files with
settings that are named before any other option or the catalog.
-/

namespace MicroFrontends.CommandLine

/-! ## All arguments -/

/-- What a value is for. -/
inductive Parameter where
  | option (o : Opt)
  | catalog
deriving DecidableEq, Repr

/-- A parameter that has not been looked at yet, with its value if that has been read. -/
structure Pending where
  parameter : Parameter
  value? : Option String
deriving Repr

/-- How far the arguments have been worked through. -/
structure State where
  arguments : Arguments := {}
  pending? : Option Pending := none
  /-- What follows is no option. -/
  isTrailing : Bool := false
  /-- A catalog was named. -/
  hasCatalog : Bool := false

namespace State

/-- Adds the value of an option. -/
def assign (a : Arguments) (o : Opt) (v : String) : Except UsageError Arguments :=
  if a.has o && !o.isRepeatable then .error (.repeatedOption o.usage) else a.put o v

/-- Adds a parameter that has been read. -/
def settlePending (a : Arguments) : Pending → Except UsageError Arguments
  | ⟨.option o, none⟩ => .error (.missingValue o.usage)
  | ⟨.option o, some v⟩ => assign a o v
  | ⟨.catalog, v?⟩ =>
    if v?.getD "" = "" then .error (.missingValue catalogUsage) else .ok { a with catalog := v? }

variable (s : State)

/-- Looks at the parameter that has been read, if there is one. -/
def settle : Except UsageError State :=
  match s.pending? with
  | some p => do return { s with arguments := ← settlePending s.arguments p, pending? := none }
  | none => .ok s

/-- The option that waits for its value. -/
def waiting? : Option Opt :=
  match s.pending? with
  | some ⟨.option o, none⟩ => some o
  | _ => none

/-- Gives a value to the option that waits for it. -/
def give (o : Opt) (v : String) : State := { s with pending? := some ⟨.option o, some v⟩ }

/-- Reads the name of a catalog. -/
def readCatalog (argument : String) : Except UsageError State :=
  if s.hasCatalog then .error (.unexpectedArgument argument)
  else do
    let s ← s.settle
    return { s with pending? := some ⟨.catalog, some argument⟩, hasCatalog := true }

/-- Acts on an option that takes no value. -/
def raise : Opt → Except Stop State
  | .help => .error .help
  | .version => .error .version
  | _ => .ok { s with arguments := { s.arguments with html := true } }

/-- Reads an option, with the value that the same argument gives to it. -/
def readOption (o : Opt) (value? : Option String) : Except Stop State :=
  if o.valueName?.isSome then
    Except.mapError Stop.misuse do
      let s ← s.settle
      match value? with
      | some v => return { s with arguments := ← assign s.arguments o v }
      | none => return { s with pending? := some ⟨.option o, none⟩ }
  else
    match value? with
    | some v => .error (.misuse (.unexpectedValue v o.usage))
    | none => do (← s.settle.mapError Stop.misuse).raise o

/-- Reads an option by its name, after two hyphens. -/
def readLong (text : List Char) : Except Stop State :=
  let (name, value?) := match Text.firstField? '=' text with
    | some (name, v) => (name, some (String.ofList v))
    | none => (text, none)
  match Opt.ofLong? (String.ofList name) with
  | some o => s.readOption o value?
  | none => .error (.misuse (.unexpectedArgument ("--" ++ String.ofList name)))

/-- Reads an option by its letter, after a hyphen. What follows the letter is the value. -/
def readShort (letter : Char) (rest : List Char) : Except Stop State :=
  match Opt.ofShort? letter with
  | some o =>
    let value? := match rest with
      | [] => none
      | '=' :: v => some (String.ofList v)
      | v => some (String.ofList v)
    s.readOption o (if o.valueName?.isSome then value? else none)
  | none => .error (.misuse (.unexpectedArgument ("-" ++ letter.toString)))

/-- Reads an argument that is no option. -/
def readPlain (argument : String) : Except Stop State :=
  match s.waiting? with
  | some o => .ok (s.give o argument)
  | none => (s.readCatalog argument).mapError .misuse

/-- Reads one argument. -/
def read (argument : String) : Except Stop State :=
  if s.isTrailing then (s.readCatalog argument).mapError .misuse
  else if s.waiting?.any Opt.takesHyphens then s.readPlain argument
  else match argument.toList with
    | ['-', '-'] => .ok { s with isTrailing := true }
    | '-' :: '-' :: text => s.readLong text
    | '-' :: letter :: rest => s.readShort letter rest
    | _ => s.readPlain argument

end State

/-- What the arguments of a call say, completed by variables. -/
def parse (environment : Dict String) (arguments : List String) : Except Stop Arguments := do
  let s ← arguments.foldlM State.read {}
  let s ← s.settle.mapError Stop.misuse
  (s.arguments.putVariables environment).mapError Stop.misuse

/-! ## Files with settings -/

/-- The value that an argument gives to the option for files with settings. -/
def attachedFile? (argument : String) : Option String :=
  match Text.firstField? '=' argument.toList with
  | some (name, v) => if String.ofList name = "--config" then some (String.ofList v) else none
  | none => none

/-- The argument can be the value of an option. -/
def isPlain (argument : String) : Bool :=
  argument = "-" || argument.toList.head? ≠ some '-'

/-- The files with settings that are named before any other option or the catalog. -/
def settingsFilesFrom (isWaiting : Bool) : List String → List String
  | [] => []
  | argument :: rest =>
    if argument = "--config" then settingsFilesFrom true rest
    else match attachedFile? argument with
      | some name => name :: settingsFilesFrom false rest
      | none =>
        if isWaiting && isPlain argument then argument :: settingsFilesFrom false rest else []

/-- The files with settings that a call names first. -/
def settingsFiles (arguments : List String) : List String := settingsFilesFrom false arguments

end MicroFrontends.CommandLine
