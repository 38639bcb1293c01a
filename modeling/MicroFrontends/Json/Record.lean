import MicroFrontends.Json.Decoder

/-!
# Records

A `Json.Record` describes an object with fixed fields. Each field is decoded into a draft, in the
order in which the document has them, and the finished draft makes the value.

A plain record skips members that it does not know, and can also be written as the array of its
fields. An open record keeps those members for another record that shares the object with it; it
cannot be written as an array.
-/

namespace MicroFrontends.Json

/-- A field of a record, with its place in the draft. -/
structure Slot (σ : Type) where
  name : String
  /-- The draft has the field already. -/
  isFilled : σ → Bool
  /-- Puts the decoded field into the draft. -/
  fill : Decoder (σ → σ)
  /-- An array may end before this field. -/
  isOptional : Bool

/-- A field that `put` puts into the draft, from where `get?` gets it. -/
def Slot.of {σ α : Type} (name : String) (get? : σ → Option α) (put : σ → α → σ)
    (decoder : Decoder α) (isOptional : Bool) : Slot σ where
  name := name
  isFilled draft := (get? draft).isSome
  fill := decoder.refine fun v => .ok fun draft => put draft v
  isOptional := isOptional

/-- An object with fixed fields. -/
structure Record (σ α : Type) where
  name : String
  /-- The draft without any field. -/
  start : σ
  slots : List (Slot σ)
  /-- Members that are no field are kept. -/
  isOpen : Bool
  /-- The value of a draft and the members that were kept. -/
  finish : σ → List (String × Json) → Except Problem α

/-- The field that has to be there. -/
def require {α : Type} (name : String) : Option α → Except Problem α
  | some v => .ok v
  | none => .error (.missingField name)

namespace Record

variable {σ α : Type} (r : Record σ α)

/-- A draft and the members kept so far. -/
abbrev State (σ : Type) := σ × List (String × Json)

def slot? (name : String) : Option (Slot σ) := r.slots.find? (·.name == name)

/-- What messages call the record. -/
def title : String := "struct " ++ r.name

/-- The number of fields, as messages say it. -/
def countElements (n : Nat) : String := toString n ++ if n = 1 then " element" else " elements"

/-- There is no more item where the field at `index` should be. -/
def tooShort (index : Nat) : Problem :=
  .invalidLength index (r.title ++ " with " ++ countElements r.slots.length)

/-! ## From a document -/

/-- Reads a member from the colon after its name. -/
def readMember (room : Nat) (state : State σ) (name : String) : Reader (State σ) := fun d =>
  match r.slot? name with
  | some slot =>
    if slot.isFilled state.1 then .error (.placeless (.duplicateField name) d)
    else do
      let (set, d) ← slot.fill.live room (← readColon d)
      return ((set state.1, state.2), d)
  | none => do
    let d ← readColon d
    if r.isOpen then
      let (v, d) ← readValue room d
      return ((state.1, state.2 ++ [(name, v)]), d)
    else return (state, ← skipValue d)

/-- Reads the fields in order, from the one at `index` on. -/
def readSlots (room : Nat) : (slots : List (Slot σ)) → (index : Nat) → σ → Reader σ
  | [], _, draft, d => .ok (draft, d)
  | slot :: slots, index, draft, d => do
    let (more, d) ← nextItem (index = 0) d
    if more then
      let (set, d) ← slot.fill.live room d
      readSlots room slots (index + 1) (set draft) d
    else if slot.isOptional then readSlots room slots (index + 1) draft d
    else .error (.placeless (r.tooShort index) d)

/-- Reads an object or, if the record is plain, an array. -/
def read (room : Nat) : Reader α := fun d =>
  match skipSpace d with
  | .char '\x7b' :: d =>
    nested room '\x7b' (fun room => insideObject fun d => do
      let (state, rest) ← readMembers (r.readMember room) (d.length + 1) true (r.start, []) d
      conclude (fun s => r.finish s.1 s.2) state rest) d
  | .char '[' :: d =>
    if r.isOpen then blameType r.title (.char '[' :: d)
    else nested room '[' (fun room => insideArray fun d => do
      let (draft, rest) ← r.readSlots room r.slots 0 r.start d
      conclude (r.finish · []) draft rest) d
  | d => blameType r.title d

/-! ## From a value -/

/-- Adds a member to the draft or to the members that are kept. -/
def addMember (state : State σ) (m : String × Json) : Except Problem (State σ) :=
  match r.slot? m.1 with
  | some slot =>
    if slot.isFilled state.1 then .error (.duplicateField m.1)
    else do return ((← slot.fill.kept m.2) state.1, state.2)
  | none => .ok (state.1, if r.isOpen then state.2 ++ [m] else state.2)

/-- The value of an object's members. -/
def ofMembers (members : List (String × Json)) : Except Problem α := do
  let state ← members.foldlM r.addMember (r.start, [])
  r.finish state.1 state.2

/-- Fills the fields in order, from the one at `index` on. -/
def fillSlots : (slots : List (Slot σ)) → (index : Nat) → σ → List Json → Except Problem σ
  | [], _, draft, _ => .ok draft
  | slot :: slots, index, draft, v :: vs => do
    fillSlots slots (index + 1) ((← slot.fill.kept v) draft) vs
  | slot :: slots, index, draft, [] =>
    if slot.isOptional then fillSlots slots (index + 1) draft []
    else .error (r.tooShort index)

/-- The value of an array of all fields. -/
def ofItems (items : List Json) : Except Problem α := do
  let draft ← r.fillSlots r.slots 0 r.start items
  let v ← r.finish draft []
  if items.length ≤ r.slots.length then return v
  else .error (.invalidLength items.length (countElements r.slots.length ++ " in sequence"))

/-- The decoder for the record. -/
def decoder : Decoder α where
  live := r.read
  kept
    | .object members => r.ofMembers members
    | .array items => if r.isOpen then refuse r.title (.array items) else r.ofItems items
    | v => refuse r.title v

end Record

end MicroFrontends.Json
