import MicroFrontends.Text.Bytes
import MicroFrontends.Text.Quoted

/-!
# Text for a terminal

Messages for people colour what they quote. The colours are always there, whether or not the output
goes to a terminal.
-/

namespace MicroFrontends.Text

/-- The text between two control sequences of a terminal, given without their first characters. -/
def styled (on : String) (text : String) (off : String) : String :=
  "\x1b[" ++ on ++ "m" ++ text ++ "\x1b[" ++ off ++ "m"

/-- A quoted text in yellow. -/
def highlight (s : String) : String := styled "33" (quote s) "0"

/-- The label of a line that reports an error, bright red and bold. -/
def errorLabel : String := styled "1" (styled "91" "error:" "39") "0"

/-- The label of a line that gives advice, green and bold. -/
def tipLabel : String := styled "1" (styled "32" "  tip:" "39") "0"

/-- The mark below the character of a line that a message is about, red and bold. -/
def caretMark : String := styled "31;1" "^" "0"

/-- How many characters stand before a byte offset, or none if the offset is inside one. An offset
after the end counts as the end. -/
def charsBefore? : (offset : Nat) → List Char → Option Nat
  | 0, _ => some 0
  | _, [] => some 0
  | offset, c :: cs =>
    if offset < c.utf8Size then none else (charsBefore? (offset - c.utf8Size) cs).map (· + 1)

/-- The column of a byte offset of a line. Inside a character it is the offset itself. -/
def column (line : String) (offset : Nat) : Nat := (charsBefore? offset line.toList).getD offset

/-- The widest padding that can be written. -/
def maxPadding : Nat := 65535

/-- A mark can be put below the character at a byte offset: it is not too far to the right. -/
def canMark (line : String) (offset : Nat) : Bool := column line offset ≤ maxPadding

/-- The line, and a line with a mark below the character at a byte offset. Where that mark cannot be
written, nothing comes after the first line. -/
def caret (line : String) (offset : Nat) : String :=
  "    " ++ line ++ "\n" ++
    if canMark line offset then
      "    " ++ String.ofList (List.replicate (column line offset) ' ') ++ caretMark ++ "\n"
    else ""

end MicroFrontends.Text
