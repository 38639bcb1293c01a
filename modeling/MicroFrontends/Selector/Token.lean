import MicroFrontends.Text.Quoted

/-!
# Tokens of selector text

* `Span` : a range of byte offsets in the text;
* `TokenKind` : what a token is, with the text of a label or of a quoted value;
* `Token` : a kind and where it stands.

`TokenKind.describe` is the wording that error messages use.
-/

namespace MicroFrontends

/-- A range of byte offsets in a text; `stop` is the offset of the first byte after it. -/
structure Span where
  start : Nat
  stop : Nat
deriving DecidableEq, Repr, Inhabited

namespace Span

/-- The empty range at an offset. -/
def emptyAt (offset : Nat) : Span := ⟨offset, offset⟩

/-- The number of bytes in the range. -/
def length (s : Span) : Nat := s.stop - s.start

/-- The range holds no byte. -/
def isEmpty (s : Span) : Bool := s.start == s.stop

/-- The two offsets with two dots between them. -/
def render (s : Span) : String := toString s.start ++ ".." ++ toString s.stop

end Span

/-- The words of the selector language. Texts of strings come without their quotes. -/
inductive TokenKind where
  | label (text : String)
  | string (text : String)
  | not
  | and
  | or
  | equals
  | notEquals
  | lparen
  | rparen
  | endOfInput
deriving DecidableEq, Repr, Inhabited

/-- How an error message names a token. -/
def TokenKind.describe : TokenKind → String
  | label text => "label " ++ Text.quote text
  | string text => "string " ++ Text.quote text
  | not => "'!'"
  | and => "'&&'"
  | or => "'||'"
  | equals => "'='"
  | notEquals => "'!='"
  | lparen => "'('"
  | rparen => "')'"
  | endOfInput => "end of input"

/-- A token and its place in the text. -/
structure Token where
  kind : TokenKind
  span : Span
deriving DecidableEq, Repr, Inhabited

/-- The token after the last one, at the end of the text. -/
def Token.endAt (offset : Nat) : Token := ⟨.endOfInput, .emptyAt offset⟩

end MicroFrontends
