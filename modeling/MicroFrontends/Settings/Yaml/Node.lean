import MicroFrontends.Decimal.Read
import MicroFrontends.Json.Value
import MicroFrontends.Settings.Yaml.Token

/-!
# YAML values

A `Node` is what a part of a document stands for. Keys of tables may be of any type, and two keys
are the same only if they are of the same type.

* `Node.ofPlain` : what a plain scalar stands for, with a tag or without one;
* `Node.ofEntries?` : the table of keys and values, of which no two have the same key;
* `Node.toJson?` : the value with texts for keys, if it has one.
-/

namespace MicroFrontends.Yaml

/-- What a part of a document stands for. -/
inductive Node where
  | null
  | bool (value : Bool)
  | int (value : Int)
  /-- A number with a point or an exponent, as it is written. -/
  | real (digits : List Char)
  | text (value : String)
  /-- A scalar that is not of the type that its tag says. -/
  | unfit
  | list (items : List Node)
  | table (entries : List (Node × Node))
deriving Inhabited

namespace Node

/-! ## Scalars -/

/-- A whole number in decimal, hexadecimal or octal digits. -/
def integer? : List Char → Option Int
  | '0' :: 'x' :: digits => Text.int64? 16 digits
  | '0' :: 'o' :: digits => Text.int64? 8 digits
  | '+' :: digits => Text.int64? 10 digits
  | digits => Text.int64? 10 digits

/-- The words for numbers that are not finite. -/
def specialNumbers : List String :=
  [".inf", ".Inf", ".INF", "+.inf", "+.Inf", "+.INF", "-.inf", "-.Inf", "-.INF", ".nan", ".NaN",
    ".NAN"]

/-- The text is that of a number. -/
def isNumber (cs : List Char) : Bool :=
  specialNumbers.contains (String.ofList cs) ||
    (cs.any Char.isDigit && (Binary64.ofText? cs).isSome)

/-- What a plain scalar without a tag stands for: a word, a number, or itself. -/
def ofWord (cs : List Char) : Node :=
  match String.ofList cs with
  | "" | "~" | "null" => null
  | "true" | "True" | "TRUE" => bool true
  | "false" | "False" | "FALSE" => bool false
  | word =>
    match integer? cs with
    | some n => int n
    | none => if isNumber cs then real cs else text word

/-- The handle of the tags that YAML itself has. -/
def coreHandle : String := "tag:yaml.org,2002:"

/-- What a plain scalar with a tag of YAML itself stands for. -/
def ofTagged (type : String) (cs : List Char) : Node :=
  let word := String.ofList cs
  match type with
  | "bool" => if word = "true" then bool true else if word = "false" then bool false else unfit
  | "int" => ((Text.int64? 10 cs).map int).getD unfit
  | "float" => if isNumber cs then real cs else unfit
  | "null" => if word = "~" || word = "null" then null else unfit
  | _ => text word

/-- What a plain scalar stands for. With a tag that is not one of YAML itself it is a text. -/
def ofPlain (tag? : Option Tag) (cs : List Char) : Node :=
  match tag? with
  | none => ofWord cs
  | some tag =>
    if tag.handle = coreHandle then ofTagged tag.suffix cs else text (String.ofList cs)

/-! ## Tables -/

mutual

/-- Two parts stand for the same. -/
def isSame : Node → Node → Bool
  | null, null => true
  | bool a, bool b => a = b
  | int a, int b => a = b
  | real a, real b => a = b
  | text a, text b => a = b
  | unfit, unfit => true
  | list as, list bs => areSame as bs
  | table as, table bs => haveSame as bs
  | _, _ => false

/-- Two lists of parts stand for the same. -/
def areSame : List Node → List Node → Bool
  | [], [] => true
  | a :: as, b :: bs => isSame a b && areSame as bs
  | _, _ => false

/-- Two lists of keys and values stand for the same. -/
def haveSame : List (Node × Node) → List (Node × Node) → Bool
  | [], [] => true
  | (a, v) :: as, (b, w) :: bs => isSame a b && isSame v w && haveSame as bs
  | _, _ => false

end

/-- The part is a scalar that is not of the type that its tag says. -/
def isUnfit : Node → Bool
  | unfit => true
  | _ => false

/-- Keys and values that follow each other in turn. What is unfit is no key, so that the next part
is the key instead. A key without a value is dropped. -/
def pairs : List Node → List (Node × Node)
  | [] => []
  | [_] => []
  | key :: v :: parts => if key.isUnfit then pairs (v :: parts) else (key, v) :: pairs parts

/-- The table of keys and values that follow each other in turn, if no key is repeated. -/
def ofEntries? (parts : List Node) : Option Node := do
  let entries := pairs parts
  if entries.Pairwise fun a b => !a.1.isSame b.1 then return table entries else none

/-! ## As JSON -/

/-- The text of a key. -/
def keyText? : Node → Option String
  | text s => some s
  | int n => some (toString n)
  | bool b => some (if b then "true" else "false")
  | real digits => some (String.ofList digits)
  | _ => none

mutual

/-- The value with texts for keys. Where two keys have the same text the later one counts. What is
unfit is null. There is no value with other keys, or with numbers that are not finite. -/
def toJson? : Node → Option Json
  | null => some .null
  | unfit => some .null
  | bool b => some (.bool b)
  | int n => some (.int n)
  | real digits => (Binary64.ofText? digits).map .float
  | text s => some (.string s)
  | list items => (itemsToJson? items).map .array
  | table entries => (entriesToJson? entries).map fun members => .object (Dict.ofEntries members)

/-- The values of items. -/
def itemsToJson? : List Node → Option (List Json)
  | [] => some []
  | item :: items => do return (← item.toJson?) :: (← itemsToJson? items)

/-- The values of entries. -/
def entriesToJson? : List (Node × Node) → Option (List (String × Json))
  | [] => some []
  | (key, v) :: entries => do
    return (← key.keyText?, ← v.toJson?) :: (← entriesToJson? entries)

end

end Node

end MicroFrontends.Yaml
