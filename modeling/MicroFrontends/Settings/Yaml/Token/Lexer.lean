import MicroFrontends.Settings.Yaml.BlockText
import MicroFrontends.Settings.Yaml.Token

/-!
# From YAML text to tokens

`Yaml.tokenize` reads all tokens of a document. That something is a key shows only at the colon
after it, so a `Lexer` remembers where a key may have started, and puts the tokens that go before
the key there once the colon has come.

A `Lexer` also remembers how far the lists and tables around are indented. A line that is indented
less ends them. Between brackets indentation does not count.
-/

namespace MicroFrontends.Yaml

/-! ## State -/

/-- A list or table in lines around the place that is read, or what belongs to one of its entries
and has to be indented further. -/
structure Indent where
  column : Nat
  /-- It is a list or table. -/
  isBlock : Bool
deriving DecidableEq, Repr

/-- Where a key may have started. -/
structure KeyStart where
  place : Place
  /-- Nothing but a key can stand there. -/
  isRequired : Bool
  /-- The number of tokens before. -/
  before : Nat
deriving DecidableEq, Repr

/-- How far a document has been read. -/
structure Lexer where
  cursor : Cursor
  /-- The tokens up to here, of which the last one comes first. -/
  tokens : List Token := []
  /-- The lists and tables around, from the inside out. -/
  indents : List Indent := []
  /-- Where a key may have started, inside of the innermost brackets. -/
  key? : Option KeyStart := none
  /-- The same for what is around these brackets, from the inside out. -/
  outerKeys : List (Option KeyStart) := []
  /-- A key may start here. -/
  allowsKey : Bool := true
  /-- The place after something in quotes or brackets, where a colon needs no white space. -/
  valuePlace? : Option Place := none
  /-- A brace has opened, or a question mark has come between brackets. Until an entry that is an
  item of a list ends, colons start none. -/
  hasBrace : Bool := false
  /-- The last colon started an entry that is an item of a list in brackets. The next comma, bracket
  or brace that closes ends the entry, even if it belongs to the entry's value. -/
  inPair : Bool := false

namespace Lexer

/-- How far the innermost of some lists and tables is indented. -/
def indentOf : List Indent → Int
  | [] => -1
  | i :: _ => i.column

variable (s : Lexer)

/-- The place that is read is between brackets. -/
def inFlow : Bool := !s.outerKeys.isEmpty

def indent : Int := indentOf s.indents

/-- The innermost list or table around is one in lines. -/
def isInBlock : Bool := s.indents.head?.any Indent.isBlock

def push (t : Token) : Lexer := { s with tokens := t :: s.tokens }

/-- Puts a token after the first ones. -/
def insert (before : Nat) (t : Token) : Lexer :=
  let n := s.tokens.length - before
  { s with tokens := s.tokens.take n ++ t :: s.tokens.drop n }

/-! ## Indentation -/

/-- Ends the lists and tables that are indented by more than a column. -/
def closeBlocks (column : Int) : Lexer :=
  if s.inFlow then s
  else
    let closed := s.indents.takeWhile fun i => column < i.column
    let ends := (closed.filter Indent.isBlock).map fun _ => Token.blockEnd
    { s with indents := s.indents.drop closed.length, tokens := ends ++ s.tokens }

/-- Forgets that something has to be indented further. -/
def dropHanging : Lexer := { s with indents := s.indents.dropWhile (!·.isBlock) }

/-- Starts a list or table in lines at a column, unless there is one already. -/
def openBlock (column : Nat) (before : Nat) (start : Token) : Lexer :=
  if s.inFlow then s
  else
    let s := if s.indent ≤ column then s.dropHanging else s
    if s.indent < column then
      { s.insert before start with indents := ⟨column, true⟩ :: s.indents }
    else s

/-- What follows has to be indented further than the list or table that it belongs to. -/
def hang : Lexer :=
  match s.indents with
  | ⟨column, true⟩ :: _ =>
    if s.inFlow then s else { s with indents := ⟨column + 1, false⟩ :: s.indents }
  | _ => s

/-! ## Keys -/

/-- Remembers that a key may start here. -/
def saveKey : Lexer :=
  if s.allowsKey then
    let isRequired := !s.inFlow && s.indent = s.cursor.column && s.isInBlock
    { s with key? := some ⟨s.cursor.place, isRequired, s.tokens.length⟩ }
  else s

/-- Forgets where a key may have started. -/
def dropKey : Option Lexer :=
  if s.key?.any KeyStart.isRequired then none else some { s with key? := none }

/-- The longest distance of a colon from the start of its key. -/
def maxKeyLength : Nat := 1024

/-- What may have been a key is none, as its line has ended, or it has become too long. -/
def isExpired (k : KeyStart) : Bool :=
  k.place.line < s.cursor.line || k.place.column + maxKeyLength < s.cursor.column

/-- Forgets where a key may have started that is none. -/
def expireKey : Option Lexer :=
  if !s.inFlow && s.key?.any s.isExpired then s.dropKey else some s

/-- Goes to what comes next. At the start of a line there may be a key. -/
def skipSpace : Option Lexer := do
  let c ← s.cursor.skipSpace s.indent
  return { s with
    cursor := c
    allowsKey := s.allowsKey || (!s.inFlow && s.cursor.line < c.line) }

/-! ## Brackets -/

/-- How deep brackets may nest. -/
def maxDepth : Nat := 255

/-- Reads a bracket or brace that starts a list or table. -/
def startFlow (isList : Bool) : Option Lexer := do
  let s := s.saveKey.hang
  if s.outerKeys.length = maxDepth then none
  let c ← s.cursor.step.skipBlanks?
  return { s.push (if isList then .bracket else .brace) with
    cursor := c
    key? := none
    outerKeys := s.key? :: s.outerKeys
    allowsKey := true
    hasBrace := s.hasBrace || !isList }

/-- Ends the entry that is an item of a list, if there is one. -/
def endPair : Lexer :=
  if s.inPair then { s.push .braceEnd with hasBrace := false, inPair := false } else s

/-- Goes back to what is around the innermost brackets. -/
def leaveFlow : Lexer :=
  match s.outerKeys with
  | key? :: outerKeys => { s with key? := key?, outerKeys := outerKeys }
  | [] => s

/-- Reads a bracket or brace that ends a list or table. -/
def endFlow (isList : Bool) : Option Lexer := do
  let s := (← s.dropKey).leaveFlow.endPair
  let c ← s.cursor.step.skipBlanks?
  return { s.push (if isList then .bracketEnd else .braceEnd) with
    cursor := c
    allowsKey := false
    valuePlace? := if s.inFlow then some c.place else s.valuePlace? }

/-- Reads a comma. -/
def readComma : Option Lexer := do
  let s := (← s.dropKey).endPair
  return { s.push .comma with cursor := ← s.cursor.step.skipBlanks?, allowsKey := true }

/-! ## Items and entries -/

/-- A dash stands at a place, and white space after it. -/
def isAtDash (c : Cursor) : Bool := c.rest.head? = some '-' && startsWithSpace c.rest.tail

/-- Reads the dash before an item. Blanks that a tab is among do not indent another item. -/
def readItem : Option Lexer := do
  if s.inFlow || !s.allowsKey then none
  let c := s.cursor.step
  let d ← c.skipBlanks?
  if (c.read isBlank).contains '\t' && isAtDash d then none
  let s := s.openBlock s.cursor.column s.tokens.length .listStart
  let s := if d.rest.head?.any fun x => x = '\n' || isFlowMark x then s.hang else s
  return { (← s.dropKey).push .item with cursor := d, allowsKey := true }

/-- The place after white space without tabs, line breaks and comments. -/
def skipKeySpace (c : Cursor) : Option Cursor :=
  match _h : c.rest with
  | ' ' :: _ => skipKeySpace c.step
  | '\n' :: _ => skipKeySpace c.step
  | '#' :: _ => skipKeySpace c.skipLine
  | '\t' :: _ => none
  | _ => some c
termination_by c.rest.length
decreasing_by
  · exact Cursor.length_step_lt _h
  · exact Cursor.length_step_lt _h
  · exact Cursor.length_skipLine_lt _h

/-- Reads the question mark before a key. -/
def readKey : Option Lexer := do
  if !s.inFlow && !s.allowsKey then none
  let s' ← (s.openBlock s.cursor.column s.tokens.length .tableStart).dropKey
  let c := s.cursor.step
  if c.rest = [] then none
  return { s'.push .key with
    cursor := ← skipKeySpace c
    allowsKey := !s.inFlow
    hasBrace := s.hasBrace || s.inFlow }

/-- The place after a colon. A word that tabs alone set off from it is no value. -/
def skipColon (c : Cursor) : Option Cursor :=
  let c := c.step
  if c.rest.head? = some '\t' then
    c.skipBlanks?.filter fun d =>
      (c.read isBlank).contains ' ' || !d.rest.head?.any isWordChar
  else some c

/-- Marks what has been read from some place on as a key. -/
def markKey (startsPair : Bool) (k : KeyStart) : Option Lexer :=
  if startsPair && k.place.line < s.cursor.line then none
  else
    let s := s.insert k.before .key
    let s := if startsPair then s.insert k.before .brace else s
    let s := (s.openBlock k.place.column k.before .tableStart).hang
    some { s with key? := none, allowsKey := false }

/-- Marks that there is an entry whose key has been marked before, or is missing. -/
def markEntry (startsPair : Bool) : Option Lexer :=
  let s := if startsPair then s.push .brace else s
  if !s.inFlow && !s.allowsKey then none
  else
    let s := (s.openBlock s.cursor.column s.tokens.length .tableStart).hang
    some { s with allowsKey := !s.inFlow }

/-- Reads the colon before a value. -/
def readValue : Option Lexer := do
  let c ← skipColon s.cursor
  let startsPair := s.inFlow && !s.hasBrace
  let s := { s with inPair := startsPair }
  let s ← match s.key? with
    | some k => s.markKey startsPair k
    | none => s.markEntry startsPair
  return { s.push .value with cursor := c }

/-- Reads the colon before a value between brackets. A bracket or brace needs white space before
it, unless the key is one that needs none. -/
def readFlowValue : Option Lexer :=
  let next := s.cursor.step.rest.head?
  if s.valuePlace? ≠ some s.cursor.place && (next = some '[' || next = some '\x7b') then none
  else s.readValue

/-! ## Names and scalars -/

/-- Reads a name, after its mark. -/
def readName (token : String → Token) : Option Lexer := do
  let s := s.saveKey
  let (name, c) ← Yaml.readName s.cursor.step
  return { s.push (token name) with cursor := c, allowsKey := false }

/-- Reads a tag. -/
def readTag : Option Lexer := do
  let s := s.saveKey
  let (t, c) ← Yaml.readTag s.cursor.step
  if c.isAtSpace || (s.inFlow && startsWithFlowMark c.rest) then
    return { s.push (.tag t) with cursor := c, allowsKey := false }
  else none

/-- Reads a text in a block. -/
def readBlock (isFolded : Bool) : Option Lexer := do
  let s := s.saveKey.dropHanging
  let (text, c) ← Yaml.readBlock isFolded s.indent s.cursor.step
  return { s.push (.scalar false (String.ofList text)) with cursor := c, allowsKey := true }

/-- What may follow a text in quotes that started on a line, blanks and comments aside. -/
def endsQuoted (line : Nat) (c : Cursor) : Bool :=
  match c.rest with
  | [] => true
  | x :: _ =>
    x = '\n' || (x = ':' && (s.inFlow || line = c.line)) ||
      (s.inFlow && (x = ',' || x = ']' || x = '\x7d'))

/-- Reads a text in quotes. -/
def readQuoted (isSingle : Bool) : Option Lexer := do
  let s := s.saveKey
  let start := s.cursor.step
  let (text, c) ← if isSingle then readSingle s.indent start else readDouble s.indent start
  let c ← c.skipBlanks?
  if !s.endsQuoted s.cursor.line c then none
  let s ← { s with cursor := c, allowsKey := false }.skipSpace
  return { s.push (.scalar false (String.ofList text)) with valuePlace? := some s.cursor.place }

/-- Reads a text without quotes. -/
def readPlain : Option Lexer := do
  let s := s.saveKey.dropHanging
  if s.inFlow && s.cursor.column ≤ s.indent then none
  let (text, c) ← Yaml.readPlain s.inFlow (s.indent + 1) s.cursor
  if text = [] then none
  return { s.push (.scalar true (String.ofList text)) with cursor := c, allowsKey := c.isLeading }

/-! ## Documents -/

/-- Ends all lists and tables in lines. -/
def endBlocks : Option Lexer := do
  return { (← (s.closeBlocks (-1)).dropKey) with allowsKey := false }

/-- Reads the line that starts a document. -/
def readDocumentStart : Option Lexer := do
  let s ← s.endBlocks
  return { s.push .documentStart with cursor := s.cursor.skip 3 }

/-- Reads the line that ends a document, which holds nothing else. -/
def readDocumentEnd : Option Lexer := do
  let s ← s.endBlocks
  let c ← (s.cursor.skip 3).skipBlanks?
  if c.isAtBreak then return { s.push .documentEnd with cursor := c } else none

/-- Reads a directive. -/
def readDirective : Option Lexer := do
  let s ← s.endBlocks
  let (token, c) ← Yaml.readDirective s.cursor.step
  return { s.push token with cursor := c }

/-- All tokens, at the end of a document. -/
def finish : Option (List Token) :=
  if (s.key? :: s.outerKeys).any fun key? => key?.any KeyStart.isRequired then none
  else some (s.closeBlocks (-1)).tokens.reverse

/-- Reads what starts with a character, of which the rest is given. -/
def readFrom (x : Char) (rest : List Char) : Option Lexer :=
  if x = '[' then s.startFlow true
  else if x = '\x7b' then s.startFlow false
  else if x = ']' then s.endFlow true
  else if x = '\x7d' then s.endFlow false
  else if x = ',' then s.readComma
  else if x = '-' && startsWithSpace rest then s.readItem
  else if x = '?' && startsWithSpace rest then s.readKey
  else if x = ':' && startsWithSpace rest then s.readValue
  else if x = ':' && s.inFlow && (startsWithFlowMark rest || s.valuePlace? = some s.cursor.place)
    then s.readFlowValue
  else if x = '*' then s.readName .alias
  else if x = '&' then s.readName .anchor
  else if x = '!' then s.readTag
  else if (x = '|' || x = '>') && !s.inFlow then s.readBlock (x = '>')
  else if x = '\'' || x = '"' then s.readQuoted (x = '\'')
  else if x = '%' || x = '@' || x = '\x60' then none
  else s.readPlain

/-- Reads what comes next, if anything does. -/
def readNext : Option Lexer :=
  match s.cursor.rest with
  | [] => none
  | x :: rest =>
    if s.cursor.column = 0 && x = '%' then s.readDirective
    else if s.cursor.isAtMark '-' then s.readDocumentStart
    else if s.cursor.isAtMark '.' then s.readDocumentEnd
    else if s.cursor.column < s.indent then none
    else s.readFrom x rest

/-- Goes to what comes next, and ends what ends before it. -/
def prepare : Option Lexer := do
  let s ← (← s.skipSpace).expireKey
  return s.closeBlocks s.cursor.column

/-- The tokens of a document that has been read up to some place. Each of them takes up some part of
the document. -/
def readAll (s : Lexer) : Option (List Token) :=
  match s.prepare with
  | none => none
  | some ready =>
    if ready.cursor.rest = [] then ready.finish
    else match ready.readNext with
      | none => none
      | some next =>
        if _h : next.cursor.rest.length < s.cursor.rest.length then readAll next else none
termination_by s.cursor.rest.length

end Lexer

/-- The tokens of a document. -/
def tokenize (cs : List Char) : Option (List Token) :=
  Lexer.readAll { cursor := .ofText cs }

end MicroFrontends.Yaml
