/-!
# Documents

A document is a list of symbols: characters, and bytes that are not part of any character because
the document is not valid UTF-8. Readers work on what is left of a document, and a place in it is
given by what is left there, so that line and column are worked out only when a message needs them.

* `Document.ofText`, `Document.ofBytes` : the document of a text, of bytes;
* `Position.of` : the line and the column, counted in bytes, of a place.
-/

namespace MicroFrontends

/-- A character, or a byte that belongs to none. -/
inductive Symbol where
  | char (c : Char)
  | junk (byte : UInt8)
deriving DecidableEq, Repr, Inhabited

/-- The number of bytes of a symbol. -/
def Symbol.size : Symbol → Nat
  | char c => c.utf8Size
  | junk _ => 1

/-- The symbols of a document from some place on. -/
abbrev Document := List Symbol

namespace Document

/-- The number of bytes. -/
def size (d : Document) : Nat := d.foldr (fun s n => s.size + n) 0

/-- The document of a text, which has characters only. -/
def ofText (s : String) : Document := s.toList.map .char

/-- The symbols from a byte on, of which there are at most `fuel`. -/
def decodeFrom (bytes : ByteArray) : (fuel : Nat) → (start : Nat) → Document
  | 0, _ => []
  | fuel + 1, start =>
    match bytes.utf8DecodeChar? start with
    | some c => .char c :: decodeFrom bytes fuel (start + c.utf8Size)
    | none =>
      match bytes[start]? with
      | some b => .junk b :: decodeFrom bytes fuel (start + 1)
      | none => []

/-- The document of a sequence of bytes. -/
def ofBytes (bytes : ByteArray) : Document := decodeFrom bytes bytes.size 0

/-- The ranges of the bytes that follow the first byte of a character. -/
def tailRanges (first : UInt8) : List (UInt8 × UInt8) :=
  if first < 0xc2 then []
  else if first < 0xe0 then [(0x80, 0xbf)]
  else if first = 0xe0 then [(0xa0, 0xbf), (0x80, 0xbf)]
  else if first = 0xed then [(0x80, 0x9f), (0x80, 0xbf)]
  else if first < 0xf0 then [(0x80, 0xbf), (0x80, 0xbf)]
  else if first = 0xf0 then [(0x90, 0xbf), (0x80, 0xbf), (0x80, 0xbf)]
  else if first < 0xf4 then [(0x80, 0xbf), (0x80, 0xbf), (0x80, 0xbf)]
  else if first = 0xf4 then [(0x80, 0x8f), (0x80, 0xbf), (0x80, 0xbf)]
  else []

/-- The characters of a document, with the replacement character for each start of a character that
is cut short, which bytes in `tail` continue, and for each byte that starts none. -/
def repaired (tail : List (UInt8 × UInt8)) : Document → List Char
  | [] => []
  | .char c :: d => c :: repaired [] d
  | .junk b :: d =>
    match tail with
    | (low, high) :: more =>
      if low ≤ b && b ≤ high then repaired more d else '\ufffd' :: repaired (tailRanges b) d
    | [] => '\ufffd' :: repaired (tailRanges b) d

/-- The text of a document, with the replacement character for what is not text. -/
def toText (d : Document) : String := String.ofList (repaired [] d)

end Document

/-- A line, counted from 1, and the number of bytes of the line before the place. -/
structure Position where
  line : Nat
  column : Nat
deriving DecidableEq, Repr, Inhabited

namespace Position

/-- The place after one more symbol. -/
def after (p : Position) (s : Symbol) : Position :=
  if s = .char '\n' then ⟨p.line + 1, 0⟩ else ⟨p.line, p.column + s.size⟩

/-- The place `bytes` bytes further on in a document, or its end. -/
def advance (p : Position) (bytes : Nat) : Document → Position
  | [] => p
  | s :: d =>
    if bytes < s.size then ⟨p.line, p.column + bytes⟩
    else (p.after s).advance (bytes - s.size) d

/-- The place in a document that is `extra` bytes after the place where `rest` is left. -/
def of (document rest : Document) (extra : Nat) : Position :=
  (⟨1, 0⟩ : Position).advance (document.size - rest.size + extra) document

end Position

end MicroFrontends
