import MicroFrontends.Selector.Token

/-!
# What can be wrong with selector text

* `LexError` : the text does not split into tokens;
* `SyntaxError` : the tokens do not form one expression;
* `SelectorError` : one of the two, with `offset` (in bytes) and `message`.
-/

namespace MicroFrontends

/-- How deeply groups, negations and operator chains may nest. -/
def maxDepth : Nat := 256

/-- Text that begins no token. -/
inductive LexError where
  /-- A character that cannot begin a token. -/
  | unexpectedChar (char : Char) (offset : Nat)
  /-- A quoted value without its closing quote, from the opening quote to the end of the text. -/
  | unterminated (literal : String) (offset : Nat)
deriving DecidableEq, Repr

/-- What would have been accepted where the tokens went wrong. -/
inductive Expected where
  /-- A label, a negation or a group. -/
  | operand
  /-- A label or a quoted value after a comparison sign. -/
  | value
  /-- The end of a group. -/
  | closingParen
  /-- Nothing after a complete expression. -/
  | endOfInput
  /-- Anything but a token that opens one more level. -/
  | shallowerNesting
deriving DecidableEq, Repr

/-- Tokens that do not form one expression: what was expected, the description of the token found
instead, and its offset. -/
structure SyntaxError where
  expected : Expected
  found : String
  position : Nat
deriving DecidableEq, Repr

/-- Any problem with selector text. -/
inductive SelectorError where
  | lexical (error : LexError)
  | syntactic (error : SyntaxError)
deriving DecidableEq, Repr

namespace LexError

/-- The byte offset of the problem. -/
def offset : LexError → Nat
  | unexpectedChar _ offset => offset
  | unterminated _ offset => offset

def message : LexError → String
  | unexpectedChar c offset =>
    "unexpected character " ++ Text.quoteChar c ++ " at offset " ++ toString offset
  | unterminated literal offset =>
    "unterminated quoted literal " ++ literal ++ " at offset " ++ toString offset

end LexError

def Expected.message : Expected → String
  | operand => "label, '!' or '('"
  | value => "value"
  | closingParen => "')'"
  | endOfInput => "end of input"
  | shallowerNesting => "at most " ++ toString maxDepth ++ " nesting levels"

def SyntaxError.message (e : SyntaxError) : String :=
  "expected " ++ e.expected.message ++ ", found " ++ e.found ++ " at offset " ++ toString e.position

namespace SelectorError

/-- The byte offset of the problem. -/
def offset : SelectorError → Nat
  | lexical e => e.offset
  | syntactic e => e.position

def message : SelectorError → String
  | lexical e => e.message
  | syntactic e => e.message

end SelectorError

end MicroFrontends
