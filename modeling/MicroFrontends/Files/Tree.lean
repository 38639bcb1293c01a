import MicroFrontends.Files
import MicroFrontends.Text.Bytes
import MicroFrontends.Text.Fields

/-!
# Files held in memory

A `FileTree` is a working directory with all that is below it. `FileTree.look` follows a path as a
file system does: `.` and `..` are steps, and only a directory has anything below it.
-/

namespace MicroFrontends

/-- What is below a working directory: files with their content, and directories that may have
nothing below them, each at its path. -/
structure FileTree where
  entries : List (List String × Option Document)
deriving Inhabited

namespace FileTree

/-- The steps of a path. -/
def steps (path : String) : List String := (Text.fields '/' path.toList).map String.ofList

/-- The tree of named files. A name with a slash at its end is that of a directory. -/
def ofEntries (files : List (String × Document)) : FileTree where
  entries := files.map fun (name, content) =>
    ((steps name).filter (· ≠ ""), if name.toList.getLast? = some '/' then none else some content)

variable (t : FileTree)

/-- There is a directory at a place: it was put there, or something is below it. -/
def isDirectory (place : List String) : Bool :=
  t.entries.any fun (path, content) =>
    place.isPrefixOf path && (content.isNone || place.length < path.length)

/-- The file at a place. -/
def file? (place : List String) : Option Document := (t.entries.lookup place).join

/-- How many bytes a name may have. -/
def maxNameLength : Nat := 255

/-- What a look at a directory finds. -/
def directoryState : FileState := .notFile "Is a directory (os error 21)"

/-- What there is after some steps from a directory above the working directory, of which nothing
but further directories above is known. -/
def walkOutside (steps : List String) : FileState :=
  if steps.all fun step => step = "" || step = "." || step = ".." then directoryState else .missing

/-- What there is after some steps from a directory. -/
def walk (directory : List String) : List String → FileState
  | [] => directoryState
  | step :: rest =>
    if step = "" || step = "." then walk directory rest
    else if step = ".." then
      if directory = [] then walkOutside rest else walk directory.dropLast rest
    else if maxNameLength < Text.byteLength step.toList then
      .notFile "File name too long (os error 36)"
    else
      let place := directory ++ [step]
      if t.isDirectory place then walk place rest
      else match t.file? place with
        | some content =>
          if rest = [] then .content content
          else .notFile "Not a directory (os error 20)"
        | none => .missing

/-- What there is at a path. -/
def look : Files := fun path =>
  if path = "" then .missing
  else if path.toList.contains '\x00' then
    .notFile "file name contained an unexpected NUL byte"
  else if path.toList.head? = some '/' then walkOutside (steps path)
  else t.walk [] (steps path)

end FileTree

end MicroFrontends
