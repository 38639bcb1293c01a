import MicroFrontends.Json.Read

/-!
# Decoders

A `Decoder α` makes a value of type `α` either while it reads a document or from a JSON value that
was read before. The two agree on what they accept, but only the first knows the place of a problem.

* `text`, `number`, `boolean`, `json`, `variant` : decoders for single values;
* `option`, `list`, `dict` : decoders made of others;
* `refine` : a decoder followed by a check.
-/

namespace MicroFrontends.Json

/-- Makes values of a type from JSON. -/
structure Decoder (α : Type) where
  /-- Reads from a document, with `room` levels that may still be opened. -/
  live : (room : Nat) → Reader α
  /-- Takes a value that was read before. -/
  kept : Json → Except Problem α

/-- Opens one more level of nesting if there is room. -/
def nested {α : Type} (room : Nat) (bracket : Char) (body : Nat → Reader α) : Reader α := fun d =>
  match room with
  | 0 => blameNext .tooDeep (.char bracket :: d)
  | room + 1 => body room d

/-- A problem with the type of the value that comes next. -/
def blameType {α : Type} (expected : String) (d : Document) : Except Failure α :=
  match d with
  | .char '[' :: _ => .error (.problem (.invalidType .sequence expected) d)
  | .char '\x7b' :: _ => .error (.problem (.invalidType .map expected) d)
  | _ => do
    let (v, rest) ← readScalar d
    .error (.problem (.invalidType v.shape expected) rest)

/-- A problem with the type of a value. -/
def refuse {α : Type} (expected : String) (v : Json) : Except Problem α :=
  .error (.invalidType v.shape expected)

namespace Decoder

variable {α β : Type}

/-- A text. -/
def text : Decoder String where
  live _ d := match skipSpace d with
    | .char '"' :: d => readText d
    | d => blameType "a string" d
  kept
    | .string s => .ok s
    | v => refuse "a string" v

/-- A number as a float. -/
def number : Decoder Binary64 where
  live _ d := do
    let d := skipSpace d
    if d.head? = some (.char '-') || startsWithDigit d then
      let (v, rest) ← readScalar d
      match v with
      | .float x => return (x, rest)
      | .int n => return (.ofInt n, rest)
      | v => .error (.problem (.invalidType v.shape "f64") rest)
    else blameType "f64" d
  kept
    | .float x => .ok x
    | .int n => .ok (.ofInt n)
    | v => refuse "f64" v

/-- A truth value. -/
def boolean : Decoder Bool where
  live _ d := match skipSpace d with
    | .char 't' :: d => do return (true, ← readWord ['r', 'u', 'e'] d)
    | .char 'f' :: d => do return (false, ← readWord ['a', 'l', 's', 'e'] d)
    | d => blameType "a boolean" d
  kept
    | .bool b => .ok b
    | v => refuse "a boolean" v

/-- Any value, with its objects in order of their names. -/
def json : Decoder Json where
  live room d := do
    let (v, d) ← readValue room d
    return (v.canonical, d)
  kept v := .ok v.canonical

/-- A value or `null`. -/
def option (inner : Decoder α) : Decoder (Option α) where
  live room d := match skipSpace d with
    | .char 'n' :: d => do return (none, ← readWord ['u', 'l', 'l'] d)
    | d => do
      let (v, d) ← inner.live room d
      return (some v, d)
  kept
    | .null => .ok none
    | v => (inner.kept v).map some

/-- An array of values. -/
def list (inner : Decoder α) : Decoder (List α) where
  live room d := match skipSpace d with
    | .char '[' :: d =>
      nested room '[' (fun room d => do
        let item (items : List α) : Reader (List α) := fun d => do
          let (v, d) ← inner.live room d
          return (v :: items, d)
        let (items, d) ← readArray item [] d
        return (items.reverse, d)) d
    | d => blameType "a sequence" d
  kept
    | .array items => items.mapM inner.kept
    | v => refuse "a sequence" v

/-- An object with any names. Of members with the same name the last one counts. -/
def dict (inner : Decoder α) : Decoder (Dict α) where
  live room d := match skipSpace d with
    | .char '\x7b' :: d =>
      nested room '\x7b' (fun room =>
        let member (entries : Dict α) (name : String) : Reader (Dict α) := fun d => do
          let (v, d) ← inner.live room (← readColon d)
          return (entries.insert name v, d)
        readObject member []) d
    | d => blameType "a map" d
  kept
    | .object members =>
      members.foldlM (fun entries m => do return entries.insert m.1 (← inner.kept m.2)) []
    | v => refuse "a map" v

/-- A value that has to pass a check. -/
def refine (inner : Decoder α) (check : α → Except Problem β) : Decoder β where
  live room d := do
    let (v, d) ← inner.live room d
    conclude check v d
  kept v := do check (← inner.kept v)

/-- The value that belongs to a name. -/
def lookupVariant (variants : List (String × α)) (name : String) : Except Problem α :=
  match variants.lookup name with
  | some v => .ok v
  | none => .error (.unknownVariant name (variants.map Prod.fst))

/-- Reads a name that stands for a value. -/
def readVariant (variants : List (String × α)) (d : Document) : Except Failure (α × Document) := do
  match skipSpace d with
  | .char '"' :: d =>
    let (name, d) ← readText d
    match lookupVariant variants name with
    | .ok v => return (v, d)
    | .error cause => .error (.problem cause d)
  | d => blameType "variant identifier" d

/-- One of several names, each of which stands for a value: alone, or as the only member of an
object, which is `null`. -/
def variant (variants : List (String × α)) : Decoder α where
  live room d := match skipSpace d with
    | .char '\x7b' :: d =>
      nested room '\x7b' (fun _ d => do
        let (v, d) ← readVariant variants d
        let rest ← match skipSpace (← readColon d) with
          | .char 'n' :: d => readWord ['u', 'l', 'l'] d
          | d => blameType "unit" d
        match skipSpace rest with
        | .char '\x7d' :: d => return (v, d)
        | [] => blameLast .endInObject []
        | d => blameLast .expectedValue d) d
    | .char '"' :: d => readVariant variants (.char '"' :: d)
    | [] => blameNext .endInValue []
    | d => blameNext .expectedValue d
  kept
    | .string name => lookupVariant variants name
    | .object [(name, .null)] => lookupVariant variants name
    | v => refuse "string or map" v

/-- Reads a whole document. -/
def parse (decoder : Decoder α) (d : Document) : Except JsonError α :=
  let parsed := do
    let (v, rest) ← decoder.live maxNesting d
    expectEnd rest
    return v
  parsed.mapError (.ofFailure d)

end Decoder

end MicroFrontends.Json
