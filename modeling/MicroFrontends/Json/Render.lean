import MicroFrontends.Json.Value

/-!
# Texts of JSON values

* `Json.compact` : the text without any blanks;
* `Json.pretty` : one item or member a line, two blanks for each level.

Both list the members of an object in the order in which they stand. A text escapes the quote, the
backslash and the control characters below the blank, and nothing else.
-/

namespace MicroFrontends.Json

/-- The last two of the four hexadecimal digits of a control character. -/
def hexPair (n : Nat) : List Char := [Nat.digitChar (n / 16), Nat.digitChar (n % 16)]

/-- A character as it stands in a JSON text. -/
def escape (c : Char) : List Char :=
  if c = '"' then ['\\', '"']
  else if c = '\\' then ['\\', '\\']
  else if c = '\x08' then ['\\', 'b']
  else if c = '\x0c' then ['\\', 'f']
  else if c = '\n' then ['\\', 'n']
  else if c = '\r' then ['\\', 'r']
  else if c = '\t' then ['\\', 't']
  else if c.toNat < 0x20 then ['\\', 'u', '0', '0'] ++ hexPair c.toNat
  else [c]

/-- A text in quotes. -/
def quote (s : String) : String := "\"" ++ String.ofList (s.toList.flatMap escape) ++ "\""

/-- The text of a value that is neither an array nor an object with something in it. -/
def scalar : Json → String
  | null => "null"
  | bool b => if b then "true" else "false"
  | int n => toString n
  | float x => x.renderShort
  | string s => quote s
  | array _ => "[]"
  | object _ => "\x7b\x7d"

mutual

/-- The text without blanks. -/
def compact : Json → String
  | array items => "[" ++ compactItems items ++ "]"
  | object members => "\x7b" ++ compactMembers members ++ "\x7d"
  | null => scalar null
  | bool b => scalar (bool b)
  | int n => scalar (int n)
  | float x => scalar (float x)
  | string s => scalar (string s)

/-- The items with commas between them. -/
def compactItems : List Json → String
  | [] => ""
  | [v] => v.compact
  | v :: vs => v.compact ++ "," ++ compactItems vs

/-- The members with commas between them. -/
def compactMembers : List (String × Json) → String
  | [] => ""
  | [(k, v)] => quote k ++ ":" ++ v.compact
  | (k, v) :: ms => quote k ++ ":" ++ v.compact ++ "," ++ compactMembers ms

end

/-- The start of a line at a level of nesting. -/
def newline (level : Nat) : String := "\n" ++ String.ofList (List.replicate (2 * level) ' ')

mutual

/-- The text with one item or member a line, for a value that stands at a level of nesting. -/
def prettyAt (level : Nat) : Json → String
  | array (v :: vs) => "[" ++ prettyItems (level + 1) (v :: vs) ++ newline level ++ "]"
  | object (m :: ms) => "\x7b" ++ prettyMembers (level + 1) (m :: ms) ++ newline level ++ "\x7d"
  | v => scalar v

/-- The items, each on a line of its own. -/
def prettyItems (level : Nat) : List Json → String
  | [] => ""
  | [v] => newline level ++ v.prettyAt level
  | v :: vs => newline level ++ v.prettyAt level ++ "," ++ prettyItems level vs

/-- The members, each on a line of its own. -/
def prettyMembers (level : Nat) : List (String × Json) → String
  | [] => ""
  | [(k, v)] => newline level ++ quote k ++ ": " ++ v.prettyAt level
  | (k, v) :: ms =>
    newline level ++ quote k ++ ": " ++ v.prettyAt level ++ "," ++ prettyMembers level ms

end

/-- The text with one item or member a line. -/
def pretty (v : Json) : String := v.prettyAt 0

end MicroFrontends.Json
