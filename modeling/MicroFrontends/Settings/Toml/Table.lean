import MicroFrontends.Dict
import MicroFrontends.Settings.Toml.Value

/-!
# TOML tables

* `Toml.Node` : a table while a document is read, with how each part of it came about;
* `Toml.readValue` : any value;
* `Toml.read` : a whole document.

A key is given once, and a table is opened once: what would change a finished part of the document
is not accepted.
-/

namespace MicroFrontends.Toml

/-! ## Tables under construction -/

/-- How a table came about. -/
inductive TableKind where
  /-- A header of a table inside of it named it. -/
  | implied
  /-- A header opened it. -/
  | opened
  /-- A key with points named it. -/
  | dotted
deriving DecidableEq

/-- A part of a document that is being read. -/
inductive Node where
  /-- A finished value. -/
  | value (v : Json)
  | table (kind : TableKind) (entries : List (String × Node))
  /-- Tables of one name, of which the last one is being read. -/
  | tables (items : List (List (String × Node)))
deriving Inhabited

namespace Node

mutual

/-- The value of a part. -/
def toJson : Node → Json
  | value v => v
  | table _ entries => .object (membersToJson entries)
  | tables items => .array (itemsToJson items)

/-- The values of entries. -/
def membersToJson : List (String × Node) → List (String × Json)
  | [] => []
  | (key, node) :: entries => (key, node.toJson) :: membersToJson entries

/-- The values of tables. -/
def itemsToJson : List (List (String × Node)) → List Json
  | [] => []
  | entries :: items => .object (membersToJson entries) :: itemsToJson items

end

/-- Changes the table at a path. Tables that are not there yet are implied. -/
def modifyAt (change : Dict Node → Option (Dict Node)) :
    (path : List String) → Dict Node → Option (Dict Node)
  | [], entries => change entries
  | key :: path, entries => do
    let node ← match entries.get? key with
      | none => (modifyAt change path []).map (table .implied)
      | some (table kind inner) => (modifyAt change path inner).map (table kind)
      | some (tables items) => do
        let inner ← modifyAt change path (← items.getLast?)
        pure (tables (items.dropLast ++ [inner]))
      | some (value _) => none
    return entries.insert key node

/-- Adds a value under keys that points join. They may lead through a table that a header implies,
but not end in it. -/
def put (v : Json) : (keys : List String) → Dict Node → Option (Dict Node)
  | [], _ => none
  | [key], entries =>
    if (entries.get? key).isSome then none else some (entries.insert key (value v))
  | key :: keys, entries => do
    let node ← match entries.get? key with
      | none => (put v keys []).map (table .dotted)
      | some (table .dotted inner) => (put v keys inner).map (table .dotted)
      | some (table .implied inner) =>
        if keys.length = 1 then none else (put v keys inner).map (table .implied)
      | _ => none
    return entries.insert key node

/-- Opens a table. -/
def openTable (key : String) (entries : Dict Node) : Option (Dict Node) :=
  match entries.get? key with
  | none => some (entries.insert key (table .opened []))
  | some (table .implied inner) => some (entries.insert key (table .opened inner))
  | _ => none

/-- Starts one more table of a name. -/
def appendTable (key : String) (entries : Dict Node) : Option (Dict Node) :=
  match entries.get? key with
  | none => some (entries.insert key (tables [[]]))
  | some (tables items) => some (entries.insert key (tables (items ++ [[]])))
  | _ => none

end Node

/-! ## Values -/

mutual

/-- Reads a value, in which at most `nesting` brackets stand within each other. -/
def readValue : (fuel nesting : Nat) → Reader Json
  | 0, _, _ => none
  | fuel + 1, nesting, c :: cs =>
    if c = '"' || c = '\'' then (readText c cs).map fun (text, rest) => (.string text, rest)
    else if c = '[' || c = '\x7b' then
      match nesting with
      | 0 => none
      | nesting + 1 =>
        if c = '[' then readItems fuel nesting [] (skipSpace false cs)
        else readEntries fuel nesting [] (skipSpace false cs)
    else readBare (c :: cs)
  | _, _, [] => none

/-- Reads the items of a list, before which come those in `items`, last first. -/
def readItems : (fuel nesting : Nat) → (items : List Json) → Reader Json
  | 0, _, _, _ => none
  | _, _, items, ']' :: cs => some (.array items.reverse, cs)
  | fuel + 1, nesting, items, cs => do
    let (v, cs) ← readValue fuel nesting cs
    match skipSpace false cs with
    | ',' :: cs => readItems fuel nesting (v :: items) (skipSpace false cs)
    | ']' :: cs => return (.array (v :: items).reverse, cs)
    | _ => none

/-- Reads the entries of a table in braces, before which come `entries`. -/
def readEntries : (fuel nesting : Nat) → Dict Node → Reader Json
  | 0, _, _, _ => none
  | _, _, entries, '\x7d' :: cs => some (.object (Node.membersToJson entries), cs)
  | fuel + 1, nesting, entries, cs => do
    let (entries, cs) ← readEntry fuel nesting entries cs
    match skipSpace false cs with
    | ',' :: cs => readEntries fuel nesting entries (skipSpace false cs)
    | '\x7d' :: cs => return (.object (Node.membersToJson entries), cs)
    | _ => none

/-- Reads a key, an equals sign and a value, and adds them to a table. -/
def readEntry : (fuel nesting : Nat) → Dict Node → Reader (Dict Node)
  | 0, _, _, _ => none
  | fuel + 1, nesting, entries, cs => do
    let (keys, cs) ← readKey cs
    match cs with
    | '=' :: cs =>
      let (v, cs) ← readValue fuel nesting (skipBlanks cs)
      return (← Node.put v keys entries, cs)
    | _ => none

end

/-! ## Documents -/

/-- Reads the path in a header that `closing` ends, and the rest of the line. -/
def readHeader (closing : List Char) (cs : List Char) : Option (List String × List Char) := do
  let (path, cs) ← readKey cs
  if closing.isPrefixOf cs then return (path, ← restOfLine? (cs.drop closing.length)) else none

/-- Reads the lines of a document into the table `root`; entries go to the table at `current`. -/
def readDocument : (fuel : Nat) → (current : List String) → (root : Dict Node) → List Char →
    Option (Dict Node)
  | 0, _, _, _ => none
  | fuel + 1, current, root, cs =>
    match skipSpace false cs with
    | [] => some root
    | '[' :: '[' :: cs => do
      let (path, cs) ← readHeader [']', ']'] cs
      let root ← Node.modifyAt (Node.appendTable (path.getLastD "")) path.dropLast root
      readDocument fuel path root cs
    | '[' :: cs => do
      let (path, cs) ← readHeader [']'] cs
      let root ← Node.modifyAt (Node.openTable (path.getLastD "")) path.dropLast root
      readDocument fuel path root cs
    | cs => do
      let (keys, cs) ← readKey cs
      match cs with
      | '=' :: cs =>
        let (v, cs) ← readValue (cs.length + 1) maxNesting (skipBlanks cs)
        let root ← Node.modifyAt (Node.put v keys) current root
        readDocument fuel current root (← restOfLine? cs)
      | _ => none

/-- The table that a document describes. The mark of its byte order does not count. -/
def read (cs : List Char) : Option (List (String × Json)) :=
  let cs := if cs.head? = some '\ufeff' then cs.tail else cs
  (readDocument (cs.length + 1) [] [] cs).map Node.membersToJson

end MicroFrontends.Toml
