import MicroFrontends.Json.Value
import MicroFrontends.Text.Digits
import MicroFrontends.Text.Fields

/-!
# Keys that lead into values

A key of a setting may lead into the value of another one: `a.b` is the entry `b` of the table `a`,
and `a[2]` is the third item of the list `a`.

* `KeyPath.ofText` : the path that a key stands for;
* `overlay` : what results where a value lies over another one;
* `KeyPath.putAt` : what results where a value lies over what there is at the end of a path.

What is on the way and no table or list as the path needs it gives way to one.
-/

namespace MicroFrontends

/-! ## Laying values over each other -/

/-- The entries of a value, which are none if it is no table. -/
def entriesOf : Option Json → Dict Json
  | some (.object entries) => entries
  | _ => []

/-- The items of a value, which are none if it is no list. -/
def itemsOf : Option Json → List Json
  | some (.array items) => items
  | _ => []

mutual

/-- What results where a value lies over another one. A table lies over a table entry by entry. -/
def overlay (below : Option Json) : Json → Json
  | .object members => .object (overlayMembers (entriesOf below) members)
  | .null => .null
  | .bool b => .bool b
  | .int n => .int n
  | .float x => .float x
  | .string s => .string s
  | .array items => .array items

/-- What results where entries lie over a table. -/
def overlayMembers (below : Dict Json) : List (String × Json) → Dict Json
  | [] => below
  | (key, v) :: members =>
    overlayMembers (below.insert key (overlay (below.get? key) v)) members

end

/-- Changes an item of a list. Places below zero are counted from the end. Null stands for all that
a place outside of the list adds to it. -/
def changeItem (place : Int) (change : Option Json → Json) (items : List Json) : List Json :=
  let n := items.length
  if n ≤ place then items ++ List.replicate (place.toNat - n) .null ++ [change none]
  else if place < -n then
    change none :: List.replicate ((-place).toNat - n - 1) .null ++ items
  else items.modify (if 0 ≤ place then place else place + n).toNat (change ∘ some)

/-! ## Paths -/

/-- A step from a value to a part of it. -/
inductive KeyStep where
  /-- To an entry of a table. -/
  | entry (name : String)
  /-- To an item of a list. -/
  | item (place : Int)
deriving DecidableEq, Repr

/-- The entry from which a path starts, and the steps from there. -/
structure KeyPath where
  root : String
  steps : List KeyStep
deriving DecidableEq, Repr

namespace KeyPath

/-- What results where a value lies over the part of another one that some steps lead to. -/
def putAt (v : Json) : List KeyStep → (below : Option Json) → Json
  | [], below => overlay below v
  | .entry name :: steps, below =>
    let entries := entriesOf below
    .object (entries.insert name (putAt v steps (entries.get? name)))
  | .item place :: steps, below => .array (changeItem place (putAt v steps) (itemsOf below))

/-! ## Paths as text -/

/-- The characters of the names in a path. -/
def isNameChar (c : Char) : Bool := c.isAlphanum || c = '-' || c = '_'

/-- The place that stands between brackets, with blanks around it. -/
def readPlace? (cs : List Char) : Option Int :=
  let isBlank (c : Char) : Bool := c = ' ' || c = '\t'
  let trimmed := ((cs.dropWhile isBlank).reverse.dropWhile isBlank).reverse
  if trimmed.head? = some '+' then none else Text.int64? 10 trimmed

theorem length_lt_of_firstField? {separator : Char} {cs field rest : List Char}
    (h : Text.firstField? separator cs = some (field, rest)) : rest.length < cs.length := by
  induction cs generalizing field with
  | nil => cases h
  | cons c cs ih =>
    unfold Text.firstField? at h
    split at h
    · cases h
      simp
    · obtain ⟨⟨f, r⟩, hf, he⟩ := Option.map_eq_some_iff.1 h
      cases he
      exact Nat.lt_succ_of_lt (ih hf)

/-- The steps that a text stands for. -/
def readSteps? (cs : List Char) : Option (List KeyStep) :=
  match cs with
  | [] => some []
  | '.' :: cs =>
    let name := cs.takeWhile isNameChar
    if name = [] then none
    else (readSteps? (cs.drop name.length)).map (.entry (String.ofList name) :: ·)
  | '[' :: cs =>
    match _h : Text.firstField? ']' cs with
    | some (inside, rest) => do
      let place ← readPlace? inside
      let steps ← readSteps? rest
      return .item place :: steps
    | none => none
  | _ => none
termination_by cs.length
decreasing_by
  · simp only [List.length_drop, List.length_cons]; omega
  · have := length_lt_of_firstField? _h
    simp only [List.length_cons]; omega

/-- The path that a text stands for, if all of it is one. -/
def ofText? (key : String) : Option KeyPath := do
  let cs := key.toList
  let root := cs.takeWhile isNameChar
  if root = [] then none
  return ⟨String.ofList root, ← readSteps? (cs.drop root.length)⟩

/-- The path that a key stands for. A text that is no path is a name as it is. -/
def ofText (key : String) : KeyPath := (ofText? key).getD ⟨key, []⟩

end KeyPath

end MicroFrontends
