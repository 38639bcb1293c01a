import MicroFrontends.Settings.Yaml.Scalar

/-!
# YAML texts in blocks

A text in a block stands in lines of its own, all indented alike. Its head says what becomes of the
line breaks: at the end of the text they may be kept, or dropped, and inside of a folded text they
join lines as they do in other texts.

* `BlockHead` : what the head of such a text says;
* `BlockLine` : a line of such a text;
* `Yaml.readBlock` : reads such a text, after the mark that starts it.
-/

namespace MicroFrontends.Yaml

/-! ## Heads -/

/-- What becomes of the line breaks at the end of a text. -/
inductive Chomping where
  /-- The last line keeps its break. -/
  | clip
  | keep
  | strip
deriving DecidableEq, Repr

/-- What the head of a text in a block says. -/
structure BlockHead where
  chomping : Chomping
  /-- How much further than what is around it the text is indented, if that is said. -/
  increment? : Option Nat

namespace BlockHead

/-- What a sign says about the line breaks at the end. -/
def chomping? : Char → Option Chomping
  | '+' => some .keep
  | '-' => some .strip
  | _ => none

/-- Reads a digit, which may be missing but is not zero. -/
def readIncrement (c : Cursor) : Option (Option Nat × Cursor) :=
  match c.rest.head?.bind (Text.digitValue? 10) with
  | none => some (none, c)
  | some 0 => none
  | some n => some (some n, c.step)

/-- Reads the signs of a head: a sign and a digit in either order, of which each may be missing. -/
def readSigns (c : Cursor) : Option (BlockHead × Cursor) :=
  match c.rest.head?.bind chomping? with
  | some chomping => do
    let (increment?, c) ← readIncrement c.step
    return (⟨chomping, increment?⟩, c)
  | none => do
    let (increment?, c) ← readIncrement c
    match c.rest.head?.bind chomping? with
    | some chomping => return (⟨chomping, increment?⟩, c.step)
    | none => return (⟨.clip, increment?⟩, c)

/-- Reads a head, of which a comment may be part, up to the end of its line. -/
def read (c : Cursor) : Option (BlockHead × Cursor) := do
  let (head, c) ← readSigns c
  let c ← c.skipBlanks?
  if c.isAtBreak then return (head, c) else none

end BlockHead

/-! ## Indentation -/

/-- The number of line breaks before the next line that holds something, and the place where that
line is indented by `indent`, or where it holds something before. -/
def skipIndent (indent : Nat) (breaks : Nat) (c : Cursor) : Nat × Cursor :=
  match _h : c.rest with
  | '\n' :: _ => skipIndent indent (breaks + 1) c.step
  | ' ' :: _ => if c.column < indent then skipIndent indent breaks c.step else (breaks, c)
  | _ => (breaks, c)
termination_by c.rest.length
decreasing_by all_goals exact Cursor.length_step_lt _h

/-- The number of line breaks before the next line that holds something, how far the widest of the
lines up to there is indented, and the place where that line holds something. -/
def measureIndent (breaks widest : Nat) (c : Cursor) : Nat × Nat × Cursor :=
  match _h : c.rest with
  | '\n' :: _ => measureIndent (breaks + 1) (max widest c.column) c.step
  | ' ' :: _ => measureIndent breaks widest c.step
  | _ => (breaks, max widest c.column, c)
termination_by c.rest.length
decreasing_by all_goals exact Cursor.length_step_lt _h

/-- The indentation of a text after its head, the number of line breaks before its first line, and
the place where this line starts. -/
def startBlock (head : BlockHead) (parent : Int) (c : Cursor) : Nat × Nat × Cursor :=
  match head.increment? with
  | some n =>
    let indent := parent.toNat + n
    (indent, skipIndent indent 0 c)
  | none =>
    let (breaks, widest, c) := measureIndent 0 0 c
    (max widest (parent + 1).toNat, breaks, c)

/-! ## Lines -/

/-- A line of a text in a block that holds something. -/
structure BlockLine where
  /-- The number of empty lines before. -/
  breaks : Nat
  text : List Char

/-- What follows the last line of a text in a block. -/
structure BlockTail where
  /-- The last line is ended by a line break. -/
  isClosed : Bool
  /-- The number of empty lines. -/
  breaks : Nat
  next : Cursor

/-- Reads the lines of a text that is indented by `indent`, of which there are at most `fuel`. -/
def readLines (indent : Nat) : (fuel : Nat) → (isClosed : Bool) → (breaks : Nat) → Cursor →
    List BlockLine × BlockTail
  | 0, isClosed, breaks, c => ([], ⟨isClosed, breaks, c⟩)
  | fuel + 1, isClosed, breaks, c =>
    if c.column ≠ indent || c.rest = [] || (indent = 0 && c.isAtMark '.') then
      ([], ⟨isClosed, breaks, c⟩)
    else
      let line := ⟨breaks, c.read (· ≠ '\n')⟩
      let c := c.skipLine
      if c.rest = [] then ([line], ⟨false, 0, c⟩)
      else
        let (breaks, c) := skipIndent indent 0 c.step
        let (lines, tail) := readLines indent fuel true breaks c
        (line :: lines, tail)

/-! ## Texts -/

/-- What stands between two lines. Lines that start with a blank are not folded. -/
def lineJoint (isFolded : Bool) (above below : BlockLine) : List Char :=
  if isFolded && !above.text.head?.any isBlank && !below.text.head?.any isBlank then
    if below.breaks = 0 then [' '] else List.replicate below.breaks '\n'
  else List.replicate (below.breaks + 1) '\n'

/-- The text of the lines after one. -/
def joinAfter (isFolded : Bool) (above : BlockLine) : List BlockLine → List Char
  | [] => []
  | below :: lines => lineJoint isFolded above below ++ below.text ++ joinAfter isFolded below lines

/-- The text of lines. -/
def joinLines (isFolded : Bool) : List BlockLine → List Char
  | [] => []
  | line :: lines =>
    List.replicate line.breaks '\n' ++ line.text ++ joinAfter isFolded line lines

/-- The line breaks at the end of a text. The end of the document stands for a break where the text
could go on. -/
def BlockTail.text (tail : BlockTail) (chomping : Chomping) (indent : Nat) : List Char :=
  let closing := if tail.isClosed then ['\n'] else []
  let final := if tail.next.rest = [] && max indent 1 ≤ tail.next.column then ['\n'] else []
  match chomping with
  | .strip => []
  | .clip => closing ++ final
  | .keep => closing ++ final ++ List.replicate tail.breaks '\n'

/-- The text of a block without lines at the end of the document. -/
def emptyText (chomping : Chomping) (breaks : Nat) : List Char :=
  match chomping with
  | .strip => []
  | .clip => ['\n']
  | .keep => List.replicate (max breaks 1) '\n'

/-- Reads a text in a block inside of something indented by `parent`, after the mark that starts
it. -/
def readBlock (isFolded : Bool) (parent : Int) (c : Cursor) : Scanned := do
  let (head, headEnd) ← BlockHead.read c
  let first := headEnd.step
  if first.rest.head? = some '\t' then none
  let (indent, breaks, start) := startBlock head parent first
  if start.rest = [] then
    return (if start.line = c.line then [] else emptyText head.chomping breaks, start)
  if start.column < indent && parent < start.column then none
  let (lines, tail) := readLines indent start.rest.length false breaks start
  return (joinLines isFolded lines ++ tail.text head.chomping indent, tail.next)

end MicroFrontends.Yaml
