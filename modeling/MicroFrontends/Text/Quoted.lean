import MicroFrontends.Text.Combining
import MicroFrontends.Text.Unprintable

/-!
# Quoted text

`Text.quote` writes a text between double quotes, `Text.quoteChar` a character between single
quotes, so that the result is one printable line: what cannot be seen is escaped. Error messages
show the words they blame in this form.
-/

namespace MicroFrontends.Text

/-- The code point of `c` in lower case hexadecimal, as in `\u007b301\u007d`. -/
def hexEscape (c : Char) : List Char :=
  "\\u\x7b".toList ++ Nat.toDigits 16 c.toNat ++ "\x7d".toList

/-- One character as it stands between two `delimiter`s. -/
def escape (delimiter c : Char) : List Char :=
  if c = '\x00' then ['\\', '0']
  else if c = '\t' then ['\\', 't']
  else if c = '\r' then ['\\', 'r']
  else if c = '\n' then ['\\', 'n']
  else if c = '\\' || c = delimiter then ['\\', c]
  else if isCombining c || isUnprintable c then hexEscape c
  else [c]

/-- The text between double quotes. -/
def quote (s : String) : String :=
  "\"" ++ String.ofList (s.toList.flatMap (escape '"')) ++ "\""

/-- The character between single quotes. -/
def quoteChar (c : Char) : String :=
  "'" ++ String.ofList (escape '\'' c) ++ "'"

end MicroFrontends.Text
