import MicroFrontends.Decimal.Layout
import MicroFrontends.Dict

/-!
# JSON values

`Json` is a value as it stands in a document: an object keeps the order of its members and members
with the same name. `Json.canonical` is the value that it denotes, where an object's members are in
order of their names and the last of those with one name counts.
-/

namespace MicroFrontends

/-- A JSON value. Whole numbers of 64 bits are apart from all other numbers. -/
inductive Json where
  | null
  | bool (value : Bool)
  | int (value : Int)
  | float (value : Binary64)
  | string (value : String)
  | array (items : List Json)
  | object (members : List (String × Json))
deriving Inhabited

namespace Json

mutual

/-- The value with all objects in order of their names, each name once. -/
def canonical : Json → Json
  | array items => array (canonicalItems items)
  | object members => object (canonicalMembers members [])
  | null => null
  | bool b => bool b
  | int n => int n
  | float x => float x
  | string s => string s

/-- `canonical` of each item. -/
def canonicalItems : List Json → List Json
  | [] => []
  | v :: vs => v.canonical :: canonicalItems vs

/-- The dictionary `d` with all members added. -/
def canonicalMembers : List (String × Json) → Dict Json → Dict Json
  | [], d => d
  | (k, v) :: ms, d => canonicalMembers ms (d.insert k v.canonical)

end

end Json

end MicroFrontends
