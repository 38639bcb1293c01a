/-!
# Text without control sequences

A terminal takes some of the bytes that it is sent for commands: control characters, and sequences
of bytes that start with the escape character. `Text.visible` is what is left of a text without
them.

`ControlState` is where a terminal is among its commands, and `ControlState.step` is what a byte
does to it. A byte outside of ASCII that is part of a command is no character. The white space of
ASCII is no command, and ends one wherever its bytes are acted upon at once.
-/

namespace MicroFrontends.Text

/-- Where a terminal is among the commands that it is sent. -/
inductive ControlState where
  /-- Outside of all commands. -/
  | text
  /-- After the escape character. -/
  | escape
  /-- After the escape character and some punctuation. -/
  | escapeMark
  /-- In a sequence that a letter ends. -/
  | sequence
  /-- At the start of a string for the device, of which this is the head. -/
  | headStart
  | headNumber
  | headMark
  /-- In the data of a string for the device, or in a message that the terminal ignores. -/
  | data
  /-- In a command to the system around the terminal. -/
  | command
deriving DecidableEq, Repr, Inhabited

namespace ControlState

/-- The byte lies between two others, or is one of them. -/
def within (low high b : UInt8) : Bool := low ≤ b && b ≤ high

/-- The state after the escape character and one more byte. -/
def ofEscape (b : UInt8) : ControlState :=
  if within 0x20 0x2f b then escapeMark
  else if b = 0x5b then sequence
  else if b = 0x5d then command
  else if b = 0x50 then headStart
  else if b = 0x58 || b = 0x5e || b = 0x5f then data
  else if within 0x30 0x7e b then text
  else escape

/-- What a byte does to the state. -/
def step (s : ControlState) (b : UInt8) : ControlState :=
  if b = 0x1b then escape
  else if b = 0x18 || b = 0x1a then text
  else match s with
    | text => text
    | escape => ofEscape b
    | escapeMark => if within 0x30 0x7e b then text else escapeMark
    | sequence => if within 0x40 0x7e b then text else sequence
    | headStart =>
      if within 0x20 0x2f b then headMark
      else if within 0x30 0x3f b then headNumber
      else if within 0x40 0x7e b then data else headStart
    | headNumber =>
      if within 0x20 0x2f b then headMark
      else if within 0x3c 0x7e b then data else headNumber
    | headMark => if within 0x30 0x7e b then data else headMark
    | data => if b = 0x9c then text else data
    | command => if b = 0x07 then text else command

/-- A line break, a tab or a page break. -/
def isBreak (b : UInt8) : Bool := b = 0x09 || b = 0x0a || b = 0x0c || b = 0x0d

/-- A byte is no part of a command, and a character starts with it. -/
def shows (s : ControlState) (b : UInt8) : Bool :=
  match s with
  | text => within 0x20 0x7e b || within 0xc2 0xf4 b || isBreak b
  | escape | escapeMark | sequence => isBreak b
  | headStart | headNumber | headMark | data | command => false

end ControlState

/-- What is left of a text after the commands in it, of which the first may have started before. -/
def visibleFrom (s : ControlState) : List Char → List Char
  | [] => []
  | c :: cs =>
    let bytes := String.utf8EncodeChar c
    if s.shows (bytes.headD 0) then c :: visibleFrom .text cs
    else visibleFrom (bytes.foldl ControlState.step s) cs

/-- What is left of a text without the commands to a terminal in it. -/
def visible (cs : List Char) : List Char := visibleFrom .text cs

end MicroFrontends.Text
