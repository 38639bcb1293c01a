import MicroFrontends.Json.Error

/-!
# Readers

A `Json.Reader` reads from the start of what is left of a document and gives the rest. This module
holds what all of them share: blanks, fixed words, and the faults blamed on the next byte.
-/

namespace MicroFrontends.Json

/-- Reads something from the start of a document. -/
abbrev Reader (α : Type) := Document → Except Failure (α × Document)

/-- The characters that may stand between the parts of a document. -/
def isSpace (s : Symbol) : Bool :=
  s = .char ' ' || s = .char '\n' || s = .char '\t' || s = .char '\r'

def skipSpace (d : Document) : Document := d.dropWhile isSpace

/-- Stops because of the next byte, or of the end of the document. -/
def blameNext {α : Type} (cause : Fault) (d : Document) : Except Failure α :=
  .error (.fault cause d 1)

/-- Stops because of what was read just now. -/
def blameLast {α : Type} (cause : Fault) (d : Document) : Except Failure α :=
  .error (.fault cause d 0)

/-- Reads the characters of a word. -/
def readWord : List Char → Document → Except Failure Document
  | [], d => .ok d
  | _ :: _, [] => blameLast .endInValue []
  | c :: cs, s :: d => if s = .char c then readWord cs d else blameNext .expectedIdent (s :: d)

end MicroFrontends.Json
