import MicroFrontends.Settings.Yaml.Cursor
import MicroFrontends.Text.Digits

/-!
# YAML tokens

* `Token` : a mark, a scalar, or a note about the scalar, list or table that follows;
* `Tag` : the name of a type, in two parts of which the first may stand for a longer text;
* `Yaml.readTag`, `Yaml.readName`, `Yaml.readDirective` : the tokens that are names.

Lists and tables in lines have no marks of their own. What starts and ends them are tokens all the
same, which the indentation of the lines gives rise to.
-/

namespace MicroFrontends.Yaml

/-- The name of a type: a handle, for which a directive may give a longer text, and the rest. -/
structure Tag where
  handle : String
  suffix : String
deriving DecidableEq, Repr, Inhabited

/-- A part of a document. -/
inductive Token where
  | documentStart
  | documentEnd
  /-- A directive that says which version of YAML is used. -/
  | version
  /-- A directive that says what a handle of tags stands for. -/
  | handle (name : String) (meaning : String)
  /-- A list in lines starts, of which `item` is an item. -/
  | listStart
  | item
  /-- A table in lines starts. -/
  | tableStart
  /-- A list or table in lines ends. -/
  | blockEnd
  /-- A list in brackets starts. -/
  | bracket
  | bracketEnd
  /-- A table in braces starts. -/
  | brace
  | braceEnd
  | comma
  /-- A key follows. -/
  | key
  /-- The value of a key follows. -/
  | value
  /-- What follows has a name. -/
  | anchor (name : String)
  /-- What has a name is meant here as well. -/
  | alias (name : String)
  | tag (t : Tag)
  | scalar (isPlain : Bool) (text : String)
deriving DecidableEq, Repr

/-! ## Names -/

/-- The characters of names of parts. -/
def isNameChar (c : Char) : Bool := !isSpace c && !isFlowMark c && c ≠ '\ufeff'

/-- Reads the name of a part, after the mark before it. -/
def readName (c : Cursor) : Option (String × Cursor) :=
  let name := c.read isNameChar
  if name = [] then none else some (String.ofList name, c.skip name.length)

/-! ## Tags -/

/-- The characters that the name of a type may have. -/
def isUriChar (c : Char) : Bool :=
  c.isAlphanum || "-#;/?:@&=+$,_.!~*'()[]%".toList.contains c

/-- The characters of the name of a type where other things may follow it. -/
def isTagChar (c : Char) : Bool := isUriChar c && !isFlowMark c && c ≠ '!'

/-- The value of a byte in hexadecimal digits, after a percent sign. -/
def readByte? : List Char → Option Nat
  | '%' :: a :: b :: _ => do return (← Text.hexValue? a) * 16 + (← Text.hexValue? b)
  | _ => none

/-- The character that escaped bytes stand for, and the number of characters that they are written
with. Two bytes stand for the character whose code they are; there are no longer ones. -/
def readUriEscape? (cs : List Char) : Option (Char × Nat) := do
  let first ← readByte? cs
  if first < 0x80 then return (.ofNat first, 3)
  if first < 0xc0 || 0xe0 ≤ first then none
  let second ← readByte? (cs.drop 3)
  if second < 0x80 || 0xc0 ≤ second then none
  let code := first * 256 + second
  if code.isValidChar then return (.ofNat code, 6) else none

/-- Reads part of the name of a type, as long as its characters are of a kind. At most `fuel` of
them are read. -/
def readUri (p : Char → Bool) : (fuel : Nat) → Cursor → Option (List Char × Cursor)
  | 0, _ => none
  | fuel + 1, c =>
    match c.rest with
    | [] => some ([], c)
    | x :: _ =>
      if !p x then some ([], c)
      else do
        let (x, n) ← if x = '%' then readUriEscape? c.rest else some (x, 1)
        let (text, c) ← readUri p fuel (c.skip n)
        return (x :: text, c)

/-- Reads the whole name of a type in angle brackets, after the first of them. -/
def readVerbatim (c : Cursor) : Option (Tag × Cursor) := do
  let (text, c) ← readUri isUriChar (c.rest.length + 1) c
  return (⟨"", String.ofList text⟩, ← c.skipChar? '>')

/-- Reads the tag after an exclamation mark that does not start a handle of its own. -/
def readLocalTag (c : Cursor) : Option (Tag × Cursor) := do
  let (text, c) ← readUri isTagChar (c.rest.length + 1) c
  if text = [] then return (⟨"", "!"⟩, c) else return (⟨"!", String.ofList text⟩, c)

/-- Reads the tag after a handle that ends in an exclamation mark. -/
def readHandledTag (handle : String) (c : Cursor) : Option (Tag × Cursor) := do
  let (text, c) ← readUri isTagChar (c.rest.length + 1) c
  if text = [] then none else return (⟨handle, String.ofList text⟩, c)

/-- Reads a tag, after its exclamation mark. -/
def readTag (c : Cursor) : Option (Tag × Cursor) :=
  if c.rest.head? = some '<' then readVerbatim c.step
  else
    let word := c.read isWordChar
    match (c.skip word.length).skipChar? '!' with
    | some d => readHandledTag ("!" ++ String.ofList word ++ "!") d
    | none => readLocalTag c

/-! ## Directives -/

/-- Reads a number of up to nine digits. -/
def readVersionNumber (c : Cursor) : Option Cursor :=
  let digits := c.read Char.isDigit
  if digits = [] || 9 < digits.length then none else some (c.skip digits.length)

/-- Reads what a directive says about the version. -/
def readVersion (c : Cursor) : Option (Token × Cursor) := do
  let c ← readVersionNumber (c.skipWhile isBlank)
  let c ← readVersionNumber (← c.skipChar? '.')
  return (.version, c)

/-- Reads the handle that a directive is about: an exclamation mark, two of them, or a word between
two of them. -/
def readHandle (c : Cursor) : Option (String × Cursor) := do
  let c ← c.skipChar? '!'
  let word := c.read isWordChar
  let d := c.skip word.length
  match d.skipChar? '!' with
  | some d => return ("!" ++ String.ofList word ++ "!", d)
  | none => if word = [] then return ("!", d) else none

/-- Reads what a handle stands for. -/
def readMeaning (c : Cursor) : Option (List Char × Cursor) :=
  if c.rest.head?.any fun x => x = '!' || isTagChar x then
    match c.skipChar? '!' with
    | some d => (readUri isUriChar (d.rest.length + 1) d).map fun (text, d) => ('!' :: text, d)
    | none => readUri isUriChar (c.rest.length + 1) c
  else none

/-- Reads what a directive says about a handle of tags. -/
def readHandleMeaning (c : Cursor) : Option (Token × Cursor) := do
  let (handle, c) ← readHandle (c.skipWhile isBlank)
  let (meaning, c) ← readMeaning (c.skipWhile isBlank)
  if c.isAtSpace then return (.handle handle (String.ofList meaning), c) else none

/-- Reads a directive, after its percent sign, and the line break that ends it. A directive of an
unknown name is one about no handle. -/
def readDirective (c : Cursor) : Option (Token × Cursor) := do
  let name := c.read isWordChar
  let c := c.skip name.length
  if name = [] || !c.isAtSpace then none
  let (token, c) ← match String.ofList name with
    | "YAML" => readVersion c
    | "TAG" => readHandleMeaning c
    | _ => some (.handle "" "", c.skipLine)
  let c ← c.skipBlanks?
  if c.isAtBreak then return (token, c.step) else none

end MicroFrontends.Yaml
