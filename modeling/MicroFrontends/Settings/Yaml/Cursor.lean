/-!
# Places in a YAML document

What a YAML document means depends on where its parts stand. A `Cursor` is a place in a document:
what is left of it there, the line, the column, and whether the line holds nothing but white space
before.

* `Cursor.ofText` : the start of a document, of which line breaks are line feeds and NUL is the end;
* `Cursor.step`, `Cursor.skip`, `Cursor.skipWhile` : places further on;
* `Cursor.skipSpace` : the place of what comes next, after white space and comments.
-/

namespace MicroFrontends.Yaml

/-! ## Characters -/

/-- White space within a line. -/
def isBlank (c : Char) : Bool := c = ' ' || c = '\t'

def isSpace (c : Char) : Bool := isBlank c || c = '\n'

/-- The characters that structure what stands between brackets. -/
def isFlowMark (c : Char) : Bool :=
  c = ',' || c = '[' || c = ']' || c = '\x7b' || c = '\x7d'

/-- The characters of names. -/
def isWordChar (c : Char) : Bool := c.isAlphanum || c = '_' || c = '-'

/-- White space comes next, or nothing. -/
def startsWithSpace : List Char → Bool
  | [] => true
  | c :: _ => isSpace c

/-- A mark between brackets comes next. -/
def startsWithFlowMark (cs : List Char) : Bool := cs.head?.any isFlowMark

/-! ## Cursors -/

/-- A line and a column, both counted from 0. -/
structure Place where
  line : Nat
  column : Nat
deriving DecidableEq, Repr, Inhabited

/-- A place in a document, with what is left of the document there. -/
structure Cursor where
  rest : List Char
  place : Place
  /-- There is nothing but white space before on the line. -/
  isLeading : Bool
deriving Inhabited

/-- All line breaks as line feeds, up to the first NUL. -/
def unifyBreaks : List Char → List Char
  | '\r' :: '\n' :: cs => '\n' :: unifyBreaks cs
  | c :: cs => if c = '\x00' then [] else (if c = '\r' then '\n' else c) :: unifyBreaks cs
  | [] => []

namespace Cursor

def ofText (cs : List Char) : Cursor := ⟨unifyBreaks cs, ⟨0, 0⟩, true⟩

variable (c : Cursor)

def line : Nat := c.place.line

def column : Nat := c.place.column

/-- The place after the next character. -/
def step : Cursor :=
  match c.rest with
  | [] => c
  | x :: rest =>
    if x = '\n' then ⟨rest, ⟨c.line + 1, 0⟩, true⟩
    else ⟨rest, ⟨c.line, c.column + 1⟩, c.isLeading && isBlank x⟩

/-- The place `n` characters further on. -/
def skip (n : Nat) : Cursor := n.repeat step c

/-- The characters that come next and are of a kind. -/
def read (p : Char → Bool) : List Char := c.rest.takeWhile p

/-- The place after these characters. -/
def skipWhile (p : Char → Bool) : Cursor := c.skip (c.read p).length

/-- The place after the next character if it is a given one, or none. -/
def skipChar? (x : Char) : Option Cursor := if c.rest.head? = some x then some c.step else none

/-- White space comes next, or nothing. -/
def isAtSpace : Bool := startsWithSpace c.rest

/-- A line break comes next, or nothing. -/
def isAtBreak : Bool := c.rest.head?.all (· = '\n')

/-- The place of the line break that ends the line. -/
def skipLine : Cursor := c.skipWhile (· ≠ '\n')

/-- The place after blanks, and after the comment that may follow them. A comment has to be set off
by blanks. -/
def skipBlanks? : Option Cursor :=
  let d := c.skipWhile isBlank
  if d.rest.head? = some '#' then
    if d.column = c.column then none else some d.skipLine
  else some d

/-- The line holds one of the marks that start and end documents, three equal characters. -/
def isAtMark (x : Char) : Bool :=
  c.column = 0 && [x, x, x].isPrefixOf c.rest && startsWithSpace (c.rest.drop 3)

/-- The line starts or ends a document. -/
def isAtDocumentMark : Bool := c.isAtMark '-' || c.isAtMark '.'

/-! ### What is left gets shorter -/

theorem rest_step : c.step.rest = c.rest.tail := by
  unfold step
  split
  · next h => simp [h]
  · next h => split <;> simp [h]

theorem rest_skip (n : Nat) : (c.skip n).rest = c.rest.drop n := by
  unfold skip
  induction n with
  | zero => rfl
  | succ n ih =>
    rw [Nat.repeat, rest_step, ih, List.tail_drop]

theorem length_skip_le (n : Nat) : (c.skip n).rest.length ≤ c.rest.length := by
  rw [rest_skip, List.length_drop]
  omega

variable {c}

theorem length_step_le : c.step.rest.length ≤ c.rest.length := by
  rw [rest_step, List.length_tail]
  omega

theorem length_step_lt {x : Char} {cs : List Char} (h : c.rest = x :: cs) :
    c.step.rest.length < c.rest.length := by
  rw [rest_step, h]
  simp

theorem length_skipLine_lt {cs : List Char} (h : c.rest = '#' :: cs) :
    c.skipLine.rest.length < c.rest.length := by
  unfold skipLine skipWhile read
  rw [rest_skip, h, List.takeWhile_cons_of_pos (by decide)]
  simp only [List.length_drop, List.length_cons]
  omega

/-! ### White space and comments -/

/-- The place of what comes next, after white space, line breaks and comments. A tab does not
indent what is indented by less than `indent`. -/
def skipSpace (indent : Int) (c : Cursor) : Option Cursor :=
  match _h : c.rest with
  | [] => some c
  | x :: _ =>
    if x = '\t' && c.isLeading && c.column < indent then
      match c.skipBlanks? with
      | some d => if d.isAtBreak then skipSpace indent c.step else none
      | none => none
    else if isSpace x then skipSpace indent c.step
    else if x = '#' then skipSpace indent c.skipLine
    else some c
termination_by c.rest.length
decreasing_by
  · exact length_step_lt _h
  · exact length_step_lt _h
  · next hx => exact length_skipLine_lt (hx ▸ _h)

end Cursor

end MicroFrontends.Yaml
