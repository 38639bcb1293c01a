import MicroFrontends.Settings.Source

/-!
# Files that a user keeps settings in

A user has one file with settings that are always read, and may name others for one call. The name
`-`, or an empty one, drops all files named before it, the user's own file included.
-/

namespace MicroFrontends

/-- The variable that names the user's own file. -/
def userFileVariable : String := "UFE_CONFIG"

/-- The place of the user's own file in a directory for configuration files. -/
def userFileName : String := "ufe/config.yaml"

/-- The path of the user's own file: what the variable says, or else its place in the user's
directory for configuration files, if there is one. -/
def userFile? (environment : Dict String) (directory? : Option String) : Option String :=
  match environment.get? userFileVariable with
  | some path => some path
  | none => directory?.map (· ++ "/" ++ userFileName)

/-- The files to read settings from. -/
structure FileChoice where
  readsUserFile : Bool
  paths : List String
deriving DecidableEq, Repr

namespace FileChoice

/-- The name drops what was named before it. -/
def isReset (name : String) : Bool := name = "" || name = "-"

/-- The choice that file names make. -/
def ofNames (names : List String) : FileChoice where
  readsUserFile := !names.any isReset
  paths := (names.reverse.takeWhile (!isReset ·)).reverse

/-- The sources of a choice. The user's own file need not be there. -/
def sources (choice : FileChoice) (userFile? : Option String) : List Source :=
  (if choice.readsUserFile then userFile?.toList.map (.file · true) else []) ++
    choice.paths.map (.file · false)

end FileChoice

end MicroFrontends
