import MicroFrontends.Json.Number
import MicroFrontends.Json.Text

/-!
# Reading and skipping values

* `readItems`, `readMembers` : what stands between the brackets of an array or an object, given a
  reader for an item or a member's value;
* `readValue` : any value, as it stands in the document;
* `skipValue` : the same for a value that nobody wants.

A value that is read may nest only so deep: a reader gets the number of levels, `room`, that may
still be opened. The loops over items and members take the length of the document as fuel, as each
round reads at least one symbol.
-/

namespace MicroFrontends.Json

/-- How deep the arrays and objects of a value that is read may nest. -/
def maxNesting : Nat := 127

/-! ## Separators -/

/-- Reads up to the next item of an array, if there is one; the first item follows no comma. -/
def nextItem (first : Bool) (d : Document) : Except Failure (Bool × Document) :=
  match skipSpace d with
  | [] => blameNext .endInList []
  | .char ']' :: d => .ok (false, .char ']' :: d)
  | .char ',' :: d =>
    if first then .ok (true, .char ',' :: d)
    else match skipSpace d with
      | .char ']' :: d => blameNext .trailingComma (.char ']' :: d)
      | [] => blameNext .endInValue []
      | d => .ok (true, d)
  | d => if first then .ok (true, d) else blameNext .expectedListCommaOrEnd d

/-- Reads the name of an object's member and the colon after it. -/
def readName : Reader String := fun d =>
  match d with
  | .char '"' :: d => readText d
  | d => blameNext .keyMustBeString d

/-- Reads the colon between a name and its value. -/
def readColon (d : Document) : Except Failure Document :=
  match skipSpace d with
  | .char ':' :: d => .ok d
  | [] => blameNext .endInObject []
  | d => blameNext .expectedColon d

/-- Reads up to the name of the next member of an object, if there is one. -/
def nextMember (first : Bool) (d : Document) : Except Failure (Bool × Document) :=
  match skipSpace d with
  | [] => blameNext .endInObject []
  | .char '\x7d' :: d => .ok (false, .char '\x7d' :: d)
  | .char ',' :: d =>
    if first then blameNext .keyMustBeString (.char ',' :: d)
    else match skipSpace d with
      | .char '"' :: d => .ok (true, .char '"' :: d)
      | .char '\x7d' :: d => blameNext .trailingComma (.char '\x7d' :: d)
      | [] => blameNext .endInValue []
      | d => blameNext .keyMustBeString d
  | .char '"' :: d =>
    if first then .ok (true, .char '"' :: d)
    else blameNext .expectedObjectCommaOrEnd (.char '"' :: d)
  | d =>
    if first then blameNext .keyMustBeString d else blameNext .expectedObjectCommaOrEnd d

/-- Reads the bracket that closes an array of which as much was read as is wanted. -/
def closeArray (d : Document) : Except Failure Document :=
  match skipSpace d with
  | .char ']' :: d => .ok d
  | .char ',' :: d =>
    match skipSpace d with
    | .char ']' :: d => blameNext .trailingComma (.char ']' :: d)
    | d => blameNext .trailingCharacters d
  | [] => blameNext .endInList []
  | d => blameNext .trailingCharacters d

/-- Reads the brace that closes an object of which all members were read. -/
def closeObject (d : Document) : Except Failure Document :=
  match skipSpace d with
  | .char '\x7d' :: d => .ok d
  | .char ',' :: d => blameNext .trailingComma (.char ',' :: d)
  | [] => blameNext .endInObject []
  | d => blameNext .trailingCharacters d

/-- Where a problem with an array is placed that was found when `d` was left. -/
def afterArray (d : Document) : Document :=
  match skipSpace d with
  | .char ']' :: d => d
  | .char ',' :: d => skipSpace d
  | d => d

/-- Where a problem with an object is placed that was found when `d` was left. -/
def afterObject (d : Document) : Document :=
  match skipSpace d with
  | .char '\x7d' :: d => d
  | d => d

/-! ## Items and members -/

variable {σ : Type}

/-- Reads the items of an array up to its closing bracket, adding each to a state. -/
def readItems (item : σ → Reader σ) : (fuel : Nat) → (first : Bool) → σ → Reader σ
  | 0, _, _, d => blameNext .endInList d
  | fuel + 1, first, state, d => do
    let (more, d) ← nextItem first d
    if more then
      let (state, d) ← item state d
      readItems item fuel false state d
    else return (state, d)

/-- Reads the members of an object up to its closing brace, adding each to a state. A member's
reader starts at the colon after its name. -/
def readMembers (member : σ → String → Reader σ) : (fuel : Nat) → (first : Bool) → σ → Reader σ
  | 0, _, _, d => blameNext .endInObject d
  | fuel + 1, first, state, d => do
    let (more, d) ← nextMember first d
    if more then
      let (name, d) ← readName d
      let (state, d) ← member state name d
      readMembers member fuel false state d
    else return (state, d)

/-- The result of what was read, with the rest; a problem has no place yet. -/
def conclude {α β : Type} (finish : α → Except Problem β) (v : α) (d : Document) :
    Except Failure (β × Document) :=
  match finish v with
  | .ok w => .ok (w, d)
  | .error cause => .error (.placeless cause d)

/-- Reads an array after its opening bracket: what stands in it, and then the closing bracket. -/
def insideArray {α : Type} (body : Reader α) : Reader α := fun d => do
  let (v, rest) ← (body d).mapError (·.settle afterArray)
  return (v, ← closeArray rest)

/-- Reads an object after its opening brace: what stands in it, and then the closing brace. -/
def insideObject {α : Type} (body : Reader α) : Reader α := fun d => do
  let (v, rest) ← (body d).mapError (·.settle afterObject)
  return (v, ← closeObject rest)

/-- Reads all items of an array, adding each to a state. -/
def readArray (item : σ → Reader σ) (start : σ) : Reader σ :=
  insideArray fun d => readItems item (d.length + 1) true start d

/-- Reads all members of an object, adding each to a state. -/
def readObject (member : σ → String → Reader σ) (start : σ) : Reader σ :=
  insideObject fun d => readMembers member (d.length + 1) true start d

/-! ## Values -/

/-- Reads a value that is neither an array nor an object. -/
def readScalar : Reader Json
  | .char 'n' :: d => do return (.null, ← readWord ['u', 'l', 'l'] d)
  | .char 't' :: d => do return (.bool true, ← readWord ['r', 'u', 'e'] d)
  | .char 'f' :: d => do return (.bool false, ← readWord ['a', 'l', 's', 'e'] d)
  | .char '-' :: d => readNumber true d
  | .char '"' :: d => do
    let (s, d) ← readText d
    return (.string s, d)
  | [] => blameNext .endInValue []
  | s :: d => if isDigit s then readNumber false (s :: d) else blameNext .expectedValue (s :: d)

/-- Reads any value. -/
def readValue : (room : Nat) → Reader Json
  | room, d =>
    match skipSpace d with
    | .char '[' :: d =>
      match room with
      | 0 => blameNext .tooDeep (.char '[' :: d)
      | room + 1 => do
        let item (items : List Json) : Reader (List Json) := fun d => do
          let (v, d) ← readValue room d
          return (v :: items, d)
        let (items, d) ← readArray item [] d
        return (.array items.reverse, d)
    | .char '\x7b' :: d =>
      match room with
      | 0 => blameNext .tooDeep (.char '\x7b' :: d)
      | room + 1 => do
        let member (members : List (String × Json)) (name : String) :
            Reader (List (String × Json)) := fun d => do
          let (v, d) ← readValue room (← readColon d)
          return ((name, v) :: members, d)
        let (members, d) ← readObject member [] d
        return (.object members.reverse, d)
    | d => readScalar d

/-- Nothing but blanks may follow the value of a document. -/
def expectEnd (d : Document) : Except Failure Unit :=
  match skipSpace d with
  | [] => .ok ()
  | d => blameNext .trailingCharacters d

/-- The value of a whole document, which may nest as deep as `room`. -/
def parse (room : Nat) (d : Document) : Except JsonError Json :=
  let parsed := do
    let (v, rest) ← readValue room d
    expectEnd rest
    return v
  parsed.mapError (.ofFailure d)

/-! ## Skipping -/

/-- Skips a value that is neither an array nor an object. -/
def skipScalar : Document → Except Failure Document
  | .char 'n' :: d => readWord ['u', 'l', 'l'] d
  | .char 't' :: d => readWord ['r', 'u', 'e'] d
  | .char 'f' :: d => readWord ['a', 'l', 's', 'e'] d
  | .char '-' :: d => skipNumber d
  | .char '"' :: d => skipText d
  | [] => blameNext .endInValue []
  | s :: d => if isDigit s then skipNumber (s :: d) else blameNext .expectedValue (s :: d)

/-- Skips the items of an array from the first one to its closing bracket. -/
def skipItems (item : Document → Except Failure Document) :
    (fuel : Nat) → Document → Except Failure Document
  | 0, d => blameNext .endInList d
  | fuel + 1, d => do
    match skipSpace (← item d) with
    | .char ',' :: d => skipItems item fuel d
    | .char ']' :: d => return d
    | [] => blameNext .endInList []
    | d => blameNext .expectedListCommaOrEnd d

/-- Skips the members of an object from the first one to its closing brace. -/
def skipMembers (value : Document → Except Failure Document) :
    (fuel : Nat) → Document → Except Failure Document
  | 0, d => blameNext .endInObject d
  | fuel + 1, d => do
    match skipSpace d with
    | .char '"' :: d =>
      match skipSpace (← value (← readColon (← skipText d))) with
      | .char ',' :: d => skipMembers value fuel d
      | .char '\x7d' :: d => return d
      | [] => blameNext .endInObject []
      | d => blameNext .expectedObjectCommaOrEnd d
    | [] => blameNext .endInObject []
    | d => blameNext .keyMustBeString d

/-- Skips a value that nests at most as deep as `fuel`. -/
def skipNested : (fuel : Nat) → Document → Except Failure Document
  | 0, d => blameNext .tooDeep d
  | fuel + 1, d =>
    match skipSpace d with
    | .char '[' :: d =>
      match skipSpace d with
      | .char ']' :: d => .ok d
      | [] => blameNext .endInList []
      | d => skipItems (skipNested fuel) (d.length + 1) d
    | .char '\x7b' :: d =>
      match skipSpace d with
      | .char '\x7d' :: d => .ok d
      | [] => blameNext .endInObject []
      | d => skipMembers (skipNested fuel) (d.length + 1) d
    | d => skipScalar d

/-- Skips a value, which may nest as deep as the document is long. -/
def skipValue (d : Document) : Except Failure Document := skipNested (d.length + 1) d

end MicroFrontends.Json
