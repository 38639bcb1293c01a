import MicroFrontends.Json.Document

/-!
# Files

The program looks at files through `Files`, which tells for each path what a look at it finds. Some
of what it finds is no regular file, and not every regular file can be read.
-/

namespace MicroFrontends

/-- What there is at a path. -/
inductive FileState where
  | missing
  /-- What is there is no regular file, or cannot be reached. -/
  | notFile (reason : String)
  /-- A regular file that cannot be read. -/
  | unreadable (reason : String)
  | content (document : Document)
deriving Inhabited

/-- The regular file that is there: its content, or why it cannot be read. -/
def FileState.file? : FileState → Option (Except String Document)
  | content document => some (.ok document)
  | unreadable reason => some (.error reason)
  | notFile _ | missing => none

/-- What there is at each path. -/
abbrev Files := String → FileState

end MicroFrontends
