import MicroFrontends.Settings.Yaml.Node
import MicroFrontends.Settings.Yaml.Token.Lexer

/-!
# YAML documents

`Yaml.read` reads a text that is one table. The tokens of the text are taken apart by rules that
follow the shape of lists and tables; each rule takes the tokens that it needs from those that are
left.
-/

namespace MicroFrontends.Yaml

/-! ## State -/

/-- How far the tokens of a document have been taken. -/
structure Progress where
  tokens : List Token
  /-- The handle of tags that the last directive is about, and what it stands for. -/
  handle? : Option (String × String) := none
  /-- The number of the last part with each name. -/
  names : Dict Nat := []
  /-- How many parts with names have been started. -/
  started : Nat := 0
  /-- The parts with names that are complete, by number. -/
  complete : List (Nat × Node) := []

/-- A rule that takes tokens, if they are as it needs them. -/
abbrev Rule := StateT Progress Option

namespace Rule

/-- The next token, which is left. -/
def peek : Rule (Option Token) := do return (← get).tokens.head?

/-- Takes the next token. -/
def skip : Rule Unit := modify fun p => { p with tokens := p.tokens.tail }

/-- Takes the next token if it is the given one. -/
def accept (t : Token) : Rule Bool := do
  if (← peek) = some t then
    skip
    return true
  else return false

/-- One of some tokens is next. -/
def isNext (ts : List Token) : Rule Bool := do return (← peek).any ts.contains

/-! ## Names and tags -/

/-- The tag with what its handle stands for. A handle between exclamation marks has to be known. -/
def resolve (tag : Tag) : Rule Tag := do
  let known := (← get).handle?.filter fun h => h.1 = tag.handle
  match known with
  | some (_, meaning) => return if tag.handle = "" then tag else ⟨meaning, tag.suffix⟩
  | none =>
    if tag.handle = "!!" then return ⟨Node.coreHandle, tag.suffix⟩
    else if 2 ≤ tag.handle.length then failure
    else return tag

/-- Takes a tag, if there is one. -/
def readTag? : Rule (Option Tag) := do
  match ← peek with
  | some (.tag tag) =>
    skip
    return some (← resolve tag)
  | _ => return none

/-- Takes a name for what follows, if there is one, and gives it a number. -/
def readAnchor? : Rule (Option Nat) := do
  match ← peek with
  | some (.anchor name) =>
    skip
    let n := (← get).started
    modify fun p => { p with started := n + 1, names := p.names.insert name n }
    return some n
  | _ => return none

/-- What a name and a tag say about the part that follows them. -/
structure Properties where
  anchor? : Option Nat
  tag? : Option Tag

/-- There is neither a name nor a tag. -/
def Properties.isEmpty (p : Properties) : Bool := p.anchor?.isNone && p.tag?.isNone

/-- Takes a name and a tag, in either order, of which each may be missing. -/
def readProperties : Rule Properties := do
  match ← readAnchor? with
  | some n => return ⟨some n, ← readTag?⟩
  | none =>
    match ← readTag? with
    | some tag => return ⟨← readAnchor?, some tag⟩
    | none => return ⟨none, none⟩

/-- The table of keys and values that follow each other in turn. -/
def table (parts : List Node) : Rule Node := fun p => (Node.ofEntries? parts).map (·, p)

/-- Notes the part that has a number. -/
def complete (anchor? : Option Nat) (node : Node) : Rule Node := do
  match anchor? with
  | some n => modify fun p => { p with complete := (n, node) :: p.complete }
  | none => pure ()
  return node

/-- The part with a name. Inside of itself it is not known yet. -/
def anchored (name : String) : Rule Node := do
  let p ← get
  match p.names.get? name with
  | some n => return (p.complete.lookup n).getD .unfit
  | none => failure

/-! ## Parts -/

mutual

/-- Takes a part. In lines it may be a list or table in lines, and where `isEntry` holds a list may
be indented as far as the table around it. -/
def readNode (fuel : Nat) (inLines isEntry : Bool) : Rule Node :=
  match fuel with
  | 0 => failure
  | fuel + 1 => do
    let properties ← readProperties
    match ← peek with
    | some (.alias name) =>
      if properties.isEmpty then
        skip
        anchored name
      else complete properties.anchor? (.ofPlain properties.tag? [])
    | _ => complete properties.anchor? (← readContent fuel inLines isEntry properties)

/-- Takes what follows the name and the tag of a part. Without them there has to be something. -/
def readContent (fuel : Nat) (inLines isEntry : Bool) (properties : Properties) : Rule Node :=
  match fuel with
  | 0 => failure
  | fuel + 1 => do
    match ← peek with
    | some (.scalar isPlain text) =>
      skip
      return if isPlain then .ofPlain properties.tag? text.toList else .text text
    | some .bracket =>
      skip
      return .list (← readFlowItems fuel true)
    | some .brace =>
      skip
      table (← readFlowEntries fuel true)
    | next =>
      if isEntry && next = some .item then return .list (← readFlatItems fuel)
      else if inLines && next = some .listStart then
        skip
        return .list (← readItems fuel)
      else if inLines && next = some .tableStart then
        skip
        table (← readEntries fuel)
      else if properties.isEmpty then failure
      else return .ofPlain properties.tag? []

/-- Takes a part in lines, which is missing if one of some tokens is next. -/
def readOptional (fuel : Nat) (inLines isEntry : Bool) (ends : List Token) : Rule Node :=
  match fuel with
  | 0 => failure
  | fuel + 1 => do
    if ← isNext ends then return .null else readNode fuel inLines isEntry

/-- Takes the items of a list in lines, and its end. -/
def readItems (fuel : Nat) : Rule (List Node) :=
  match fuel with
  | 0 => failure
  | fuel + 1 => do
    if ← accept .blockEnd then return []
    else if ← accept .item then
      let item ← readOptional fuel true false [.item, .blockEnd]
      return item :: (← readItems fuel)
    else failure

/-- Takes the items of a list that is indented as far as the table around it. -/
def readFlatItems (fuel : Nat) : Rule (List Node) :=
  match fuel with
  | 0 => failure
  | fuel + 1 => do
    if ← accept .item then
      let item ← readOptional fuel true false [.item, .key, .value, .blockEnd]
      return item :: (← readFlatItems fuel)
    else return []

/-- Takes the keys and values of a table in lines in turn, and its end. -/
def readEntries (fuel : Nat) : Rule (List Node) :=
  match fuel with
  | 0 => failure
  | fuel + 1 => do
    if ← accept .blockEnd then return []
    else
      let ends := [Token.key, .value, .blockEnd]
      let key ←
        if ← accept .key then readOptional fuel true true ends
        else if ← isNext [.value] then pure .null
        else failure
      let v ← if ← accept .value then readOptional fuel true true ends else pure .null
      return key :: v :: (← readEntries fuel)

/-- Takes the items of a list in brackets, and its end. -/
def readFlowItems (fuel : Nat) (isFirst : Bool) : Rule (List Node) :=
  match fuel with
  | 0 => failure
  | fuel + 1 => do
    if ← accept .bracketEnd then return []
    unless isFirst do unless ← accept .comma do failure
    if ← accept .bracketEnd then return []
    let item ← if ← accept .key then readPair fuel else readNode fuel false false
    return item :: (← readFlowItems fuel false)

/-- Takes an entry that is an item of a list in brackets. -/
def readPair (fuel : Nat) : Rule Node :=
  match fuel with
  | 0 => failure
  | fuel + 1 => do
    let key ←
      if ← isNext [.value, .comma, .bracketEnd] then
        skip
        pure .null
      else readNode fuel false false
    let v ←
      if ← accept .value then readOptional fuel false false [.comma, .bracketEnd] else pure .null
    table [key, v]

/-- Takes the keys and values of a table in braces in turn, and its end. -/
def readFlowEntries (fuel : Nat) (isFirst : Bool) : Rule (List Node) :=
  match fuel with
  | 0 => failure
  | fuel + 1 => do
    if ← accept .braceEnd then return []
    unless isFirst do unless ← accept .comma do failure
    if ← accept .braceEnd then return []
    let isMarked ← accept .key
    let (key, hasValue) ←
      if isMarked then pure (← readOptional fuel false false [.value, .comma, .braceEnd], true)
      else if ← isNext [.value] then pure (.null, true)
      else pure (← readNode fuel false false, false)
    let v ← if hasValue then readFlowValue fuel else pure .null
    return key :: v :: (← readFlowEntries fuel false)

/-- Takes the value of an entry of a table in braces, which may be missing. -/
def readFlowValue (fuel : Nat) : Rule Node :=
  match fuel with
  | 0 => failure
  | fuel + 1 => do
    if ← accept .value then readOptional fuel false false [.comma, .braceEnd] else return .null

end

end Rule

/-! ## Documents -/

/-- Takes the directives of a document and the mark after them. Only the last directive counts. -/
def readDirectives (hasVersion : Bool) (handle? : Option (String × String)) :
    List Token → Option Progress
  | .version :: tokens => if hasVersion then none else readDirectives true none tokens
  | .handle name meaning :: tokens => readDirectives hasVersion (some (name, meaning)) tokens
  | .documentStart :: tokens => some { tokens := tokens, handle? := handle? }
  | _ => none

/-- Takes what goes before the parts of a document, which is nothing if it has no directives and
does not start with a mark. -/
def startDocument (tokens : List Token) : Option Progress :=
  match tokens with
  | .version :: _ | .handle _ _ :: _ | .documentStart :: _ => readDirectives false none tokens
  | _ => some { tokens := tokens }

/-- How many rules may be at work at a time. Of four that call each other one takes a token. -/
def maxRules (tokens : List Token) : Nat := 4 * tokens.length + 4

/-- The table that is all of the only document in a text. A text without documents is the empty
table. -/
def read (cs : List Char) : Option (Dict Json) := do
  match (← tokenize cs).dropWhile (· = .documentEnd) with
  | [] => return []
  | tokens =>
    let (root, p) ← (Rule.readNode (maxRules tokens) true false).run (← startDocument tokens)
    match ← root.toJson? with
    | .object entries => if p.tokens.all (· = .documentEnd) then return entries else none
    | _ => none

end MicroFrontends.Yaml
