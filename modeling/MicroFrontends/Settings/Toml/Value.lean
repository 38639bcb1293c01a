import MicroFrontends.Decimal.Read
import MicroFrontends.Json.Value
import MicroFrontends.Settings.Toml.Time
import MicroFrontends.Text.Fields

/-!
# Values and keys in TOML

* `Toml.readBare` : numbers, truth values, dates and times;
* `Toml.readKey` : keys, of which several are joined by points.

Values are those of JSON; a date or a time is its text.
-/

namespace MicroFrontends.Toml

/-! ## Numbers and other values that stand in no quotes -/

/-- Digits in groups that single underscores separate. -/
def digits? (radix : Nat) (cs : List Char) : Option (List Char) :=
  let groups := Text.fields '_' cs
  if groups.all fun g => g ≠ [] && g.all fun c => (Text.digitValue? radix c).isSome then
    some groups.flatten
  else none

/-- The digits of a decimal number, which has no zero in front. -/
def wholeDigits? (cs : List Char) : Option (List Char) :=
  (digits? 10 cs).filter fun ds => ds.head? ≠ some '0' || ds.length = 1

/-- A whole number of 64 bits. -/
def integer? (cs : List Char) : Option Int := do
  let n ← match cs with
    | '0' :: 'x' :: ds => (digits? 16 ds).bind (Text.int? 16)
    | '0' :: 'o' :: ds => (digits? 8 ds).bind (Text.int? 8)
    | '0' :: 'b' :: ds => (digits? 2 ds).bind (Text.int? 2)
    | cs => do
      let (negative, ds) := Text.splitSign cs
      let n ← Text.int? 10 (← wholeDigits? ds)
      pure (if negative then -n else n)
  if Text.isInt64 n then return n else none

/-- An exponent, after its letter. -/
def exponent? (cs : List Char) : Option Int := do
  let (negative, ds) := Text.splitSign cs
  let n ← Text.int? 10 (← digits? 10 ds)
  return if negative then -n else n

/-- A number with a point or an exponent, or one that is not finite. -/
def real? (cs : List Char) : Option Binary64 := do
  let (negative, cs) := Text.splitSign cs
  if cs = ['i', 'n', 'f'] then return .infinity negative
  if cs = ['n', 'a', 'n'] then return .nan
  if cs.all fun c => c.isDigit || c = '_' then none
  let mantissa := cs.takeWhile fun c => c ≠ 'e' && c ≠ 'E'
  let e ← match cs.drop mantissa.length with
    | [] => pure 0
    | _ :: ds => exponent? ds
  let (whole, fraction) ← match Text.firstField? '.' mantissa with
    | some (w, f) => do pure (← wholeDigits? w, ← digits? 10 f)
    | none => do pure (← wholeDigits? mantissa, [])
  let x := Binary64.ofDecimal negative (← Text.nat? 10 (whole ++ fraction)) (e - fraction.length)
  if x.isInfinite then none else return x

/-- The characters of numbers and truth values. -/
def isBareChar (c : Char) : Bool := c.isAlphanum || "+-_.".toList.contains c

/-- The number or truth value that a text is. -/
def bareValue? (cs : List Char) : Option Json :=
  if cs = ['t', 'r', 'u', 'e'] then some (.bool true)
  else if cs = ['f', 'a', 'l', 's', 'e'] then some (.bool false)
  else match integer? cs with
    | some n => some (.int n)
    | none => (real? cs).map .float

/-- Reads a value that stands in no quotes or brackets. -/
def readBare : Reader Json := fun cs =>
  match Moment.read cs with
  | some (m, rest) => some (.string m.toText, rest)
  | none =>
    let text := cs.takeWhile isBareChar
    (bareValue? text).map fun v => (v, cs.drop text.length)

/-! ## Keys -/

/-- How many keys may be joined, and how deep values may be nested. -/
def maxNesting : Nat := 80

/-- The characters of keys that stand in no quotes. -/
def isKeyChar (c : Char) : Bool := c.isAlphanum || c = '-' || c = '_'

/-- Reads one key. -/
def readSimpleKey : Reader String
  | '"' :: cs => (readLine '"' cs).map fun (key, rest) => (String.ofList key, rest)
  | '\'' :: cs => (readLine '\'' cs).map fun (key, rest) => (String.ofList key, rest)
  | cs =>
    let key := cs.takeWhile isKeyChar
    if key = [] then none else some (String.ofList key, cs.drop key.length)

/-- Reads keys that points join, at most `most` of them, and the blanks around them. -/
def readKeys : (most : Nat) → Reader (List String)
  | 0, _ => none
  | most + 1, cs => do
    let (key, rest) ← readSimpleKey (skipBlanks cs)
    match skipBlanks rest with
    | '.' :: rest =>
      let (keys, rest) ← readKeys most rest
      return (key :: keys, rest)
    | rest => return ([key], rest)

def readKey : Reader (List String) := readKeys maxNesting

end MicroFrontends.Toml
