import MicroFrontends.Files
import MicroFrontends.Json.Read
import MicroFrontends.Settings.Layers
import MicroFrontends.Settings.Toml.Table
import MicroFrontends.Settings.Yaml.Document

/-!
# Sources of settings

A `Source` is a text in one of several formats, or a file whose name tells the format. A file may be
named without its extension. `Settings.load` reads sources and lays them over each other.
-/

namespace MicroFrontends

/-! ## Formats -/

/-- A form in which settings are written. -/
inductive Format where
  | yaml
  | json
  | toml
deriving DecidableEq, Repr, Inhabited

namespace Format

/-- The extensions of files with settings, in the order in which they are tried. -/
def extensions : List (String × Format) :=
  [("toml", toml), ("json", json), ("yaml", yaml), ("yml", yaml)]

/-- The entries of a text in a format, if it is a table. -/
def read (format : Format) (text : String) : Option (List (String × Json)) :=
  match format with
  | yaml => Yaml.read text.toList
  | toml => Toml.read text.toList
  | json =>
    match (Json.parse Json.maxNesting (.ofText text)).map Json.canonical with
    | .ok (.object members) => some members
    | _ => none

end Format

/-! ## Names of files -/

/-- The last step of a path. -/
def fileName (path : String) : List Char := (Text.fields '/' path.toList).getLastD []

/-- The text after the last point of a file's name, if there is a name before it. -/
def extension? (path : String) : Option String :=
  let name := fileName path
  let extension := name.reverse.takeWhile (· ≠ '.')
  if extension.length + 1 < name.length then some (String.ofList extension.reverse) else none

/-- A path without steps that lead nowhere. -/
def tidyPath (path : String) : String :=
  let steps := (Text.fields '/' path.toList).filter fun s => s ≠ [] && s ≠ ['.']
  (if path.toList.head? = some '/' then "/" else "") ++ "/".intercalate (steps.map String.ofList)

/-- The steps of a path, without those at its end that lead nowhere. -/
def stepsToName (path : String) : List (List Char) :=
  ((Text.fields '/' path.toList).reverse.dropWhile fun s => s = [] || s = ['.']).reverse

/-- A path with an extension added to the name at its end, if it ends in one. -/
def withExtension? (path extension : String) : Option String :=
  let steps := stepsToName path
  if steps.getLast?.all (· = ['.', '.']) then none
  else some ("/".intercalate (steps.map String.ofList) ++ "." ++ extension)

/-! ## Sources -/

/-- Where settings are from. -/
inductive Source where
  | text (format : Format) (content : String)
  /-- A file, which need not be there if it is optional. -/
  | file (path : String) (isOptional : Bool)
deriving Inhabited

/-- A file with settings. -/
structure SettingsFile where
  path : String
  format : Format
  content : Document

namespace SettingsFile

/-- The file of a path and a format, if it can be read. -/
def ofFile (path : String) (format : Format) (file : Except String Document) :
    Except SettingsError SettingsFile :=
  (file.mapError .readFailure).map (⟨path, format, ·⟩)

/-- Looks for a regular file with an extension added to its name. -/
def findExtended? (files : Files) (path : String) : Option (Except SettingsError SettingsFile) :=
  Format.extensions.findSome? fun (extension, format) => do
    let path ← withExtension? path extension
    return ofFile path format (← (files path).file?)

/-- Looks for a regular file, which is the one meant even if it cannot be read. If there is none of
the name, one with an extension added will do. -/
def find (files : Files) (path : String) : Except SettingsError SettingsFile :=
  match (files path).file? with
  | some file =>
    match (extension? path).bind fun e => Format.extensions.lookup e with
    | some format => ofFile path format file
    | none => .error (.unsupportedFormat path)
  | none =>
    match findExtended? files path with
    | some found => found
    | none => .error (.fileNotFound path)

/-- The text of the file, without the mark of its byte order. -/
def text (file : SettingsFile) : String :=
  match file.content with
  | .char '\ufeff' :: content => Document.toText content
  | content => Document.toText content

end SettingsFile

namespace Source

/-- What a text in a format sets. -/
def layer (origin : Option String) (format : Format) (content : String) :
    Except SettingsError Layer :=
  match format.read content with
  | some entries => .ok ⟨origin, entries⟩
  | none => .error .unreadable

/-- What a source sets, which is nothing if it is optional and cannot be had. -/
def read (files : Files) : Source → Except SettingsError Layer
  | text format content => layer none format content
  | file path isOptional =>
    match SettingsFile.find files path with
    | .ok found => layer (some (tidyPath found.path)) found.format found.text
    | .error e => if isOptional then .ok ⟨none, []⟩ else .error e

end Source

/-- The settings from sources, of which a later one goes before an earlier one. -/
def Settings.load (files : Files) (sources : List Source) : Except SettingsError Settings := do
  ofLayers (← sources.mapM (Source.read files))

end MicroFrontends
