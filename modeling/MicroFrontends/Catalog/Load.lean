import MicroFrontends.Catalog.Decode
import MicroFrontends.Error
import MicroFrontends.Files

/-!
# Reading a catalog

`Catalog.read` reads a catalog from a document, `Catalog.load` from a file.
-/

namespace MicroFrontends.Catalog

/-- The catalog of a document from some origin. -/
def read (origin : String) (d : Document) : Except ProgramError Catalog :=
  (ofDocument d).mapError (.catalog origin)

/-- The catalog in a file. -/
def load (files : Files) (path : String) : Except ProgramError Catalog :=
  match files path with
  | .missing => .error (.fileNotFound path)
  | .notFile reason | .unreadable reason => .error (.io reason)
  | .content d => read path d

end MicroFrontends.Catalog
