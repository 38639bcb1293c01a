import MicroFrontends.Json.Reader

/-!
# JSON numbers

* `readNumber` : reads a number after its sign;
* `skipNumber` : the same for a number that nobody wants, of which only the form counts.

A number without fraction and exponent that fits into 64 bits is whole. For any other one the digits
are collected in 64 bits; digits that no longer fit count in the exponent only. The float nearest to
the collected digits is then scaled by the power of ten, which rounds a second time.
-/

namespace MicroFrontends.Json

/-! ## Scaling by powers of ten -/

/-- The largest power of ten that is applied in one step. -/
def maxPowerOfTen : Nat := 308

/-- The float nearest to a power of ten. -/
def powerOfTen (e : Nat) : Binary64 := .ofNat (Nat.pow 10 e)

/-- A float times `10 ^ e`, in steps of the largest power if `e` is below it. There is no result if
it is too large. -/
def scale? (x : Binary64) (e : Int) : Option Binary64 :=
  if 0 ≤ e then
    if e ≤ maxPowerOfTen then
      let y := x.mul (powerOfTen e.toNat)
      if y.isInfinite then none else some y
    else if x.isZero then some x else none
  else if -maxPowerOfTen ≤ e then some (x.div (powerOfTen (-e).toNat))
  else if x.isZero then some x
  else scale? (x.div (powerOfTen maxPowerOfTen)) (e + maxPowerOfTen)
termination_by (-e).toNat
decreasing_by simp only [maxPowerOfTen] at *; omega

/-- The float for collected digits and an exponent. -/
def ofParts? (negative : Bool) (digits : Nat) (e : Int) : Option Binary64 :=
  (scale? (.ofNat digits) e).map fun x => if negative then x.neg else x

/-! ## Digits -/

/-- The value of a decimal digit. -/
def digit? : Symbol → Option Nat
  | .char c => if c.isDigit then some (c.toNat - '0'.toNat) else none
  | .junk _ => none

def isDigit (s : Symbol) : Bool := (digit? s).isSome

def startsWithDigit (d : Document) : Bool := d.head?.any isDigit

def skipDigits (d : Document) : Document := d.dropWhile isDigit

/-- The number collected from digits as long as it is at most `limit`. -/
structure Collected where
  value : Nat
  count : Nat
  rest : Document

/-- Adds digits to a number as long as it is at most `limit`. -/
def collect (limit value : Nat) : (count : Nat) → Document → Collected
  | count, s :: d =>
    match digit? s with
    | some k =>
      if value * 10 + k ≤ limit then collect limit (value * 10 + k) (count + 1) d
      else ⟨value, count, s :: d⟩
    | none => ⟨value, count, s :: d⟩
  | count, [] => ⟨value, count, []⟩

/-- The largest number that digits are collected to. -/
def maxDigits : Nat := Nat.pow 2 64 - 1

/-- The largest exponent that is read. -/
def maxExponent : Nat := Nat.pow 2 31 - 1

/-! ## Reading -/

/-- A number with its sign. -/
structure Signed where
  negative : Bool
  digits : Nat

namespace Signed

/-- The value without fraction and exponent: whole if it fits into 64 bits, and a float if not or
if it is a zero with a sign. -/
def whole (n : Signed) : Json :=
  if n.negative then
    if n.digits = 0 || Nat.pow 2 63 < n.digits then .float (Binary64.ofNat n.digits).neg
    else .int (-n.digits)
  else .int n.digits

/-- The value with an exponent. -/
def withExponent (n : Signed) (e : Int) (d : Document) : Except Failure (Json × Document) :=
  match ofParts? n.negative n.digits e with
  | some x => .ok (.float x, d)
  | none => blameLast .numberOutOfRange d

/-- Reads an exponent, after its letter, for digits with the exponent `e`. -/
def readExponent (n : Signed) (e : Int) (d : Document) : Except Failure (Json × Document) :=
  let (down, d) := match d with
    | .char '+' :: d => (false, d)
    | .char '-' :: d => (true, d)
    | d => (false, d)
  match d with
  | [] => blameLast .endInValue []
  | s :: d =>
    match digit? s with
    | none => blameNext .invalidNumber (s :: d)
    | some k =>
      let c := collect maxExponent k 0 d
      if startsWithDigit c.rest then
        if n.digits ≠ 0 && !down then blameLast .numberOutOfRange c.rest.tail
        else .ok (.float (.zero n.negative), skipDigits c.rest)
      else n.withExponent (if down then e - c.value else e + c.value) c.rest

/-- Reads what may follow the digits of a number with the exponent `e`. -/
def readOptionalExponent (n : Signed) (e : Int) : Document → Except Failure (Json × Document)
  | .char 'e' :: d => n.readExponent e d
  | .char 'E' :: d => n.readExponent e d
  | d => n.withExponent e d

/-- Reads a fraction, after its point, for digits with the exponent `e`. -/
def readFraction (n : Signed) (e : Int) (d : Document) : Except Failure (Json × Document) :=
  let c := collect maxDigits n.digits 0 d
  let e := e - c.count
  if startsWithDigit c.rest then
    readOptionalExponent ⟨n.negative, c.value⟩ e (skipDigits c.rest)
  else if c.count = 0 then
    if c.rest = [] then blameNext .endInValue [] else blameNext .invalidNumber c.rest
  else readOptionalExponent ⟨n.negative, c.value⟩ e c.rest

end Signed

/-- Reads a number after its sign. -/
def readNumber (negative : Bool) : Reader Json
  | [] => blameLast .endInValue []
  | s :: d =>
    match digit? s with
    | none => blameNext .invalidNumber (s :: d)
    | some first =>
      if first = 0 && startsWithDigit d then blameNext .invalidNumber d
      else
        let c := if first = 0 then ⟨0, 0, d⟩ else collect maxDigits first 0 d
        let n : Signed := ⟨negative, c.value⟩
        if startsWithDigit c.rest then
          let rest := skipDigits c.rest
          let e := c.rest.length - rest.length
          match rest with
          | .char '.' :: d => n.readFraction e d
          | d => n.readOptionalExponent e d
        else match c.rest with
          | .char '.' :: d => n.readFraction 0 d
          | .char 'e' :: d => n.readExponent 0 d
          | .char 'E' :: d => n.readExponent 0 d
          | d => .ok (n.whole, d)

/-! ## Skipping -/

/-- Skips an exponent after its letter. -/
def skipExponent (d : Document) : Except Failure Document :=
  let d := match d with
    | .char '+' :: d => d
    | .char '-' :: d => d
    | d => d
  if startsWithDigit d then .ok (skipDigits d) else blameNext .invalidNumber d

/-- Skips what may follow the digits of a number. -/
def skipOptionalExponent : Document → Except Failure Document
  | .char 'e' :: d => skipExponent d
  | .char 'E' :: d => skipExponent d
  | d => .ok d

/-- Skips a number after its sign. -/
def skipNumber (d : Document) : Except Failure Document :=
  if !startsWithDigit d then blameNext .invalidNumber d
  else if d.head? = some (.char '0') && startsWithDigit d.tail then
    blameNext .invalidNumber d.tail
  else
    match skipDigits d with
    | .char '.' :: r =>
      if startsWithDigit r then skipOptionalExponent (skipDigits r)
      else blameNext .invalidNumber r
    | r => skipOptionalExponent r

end MicroFrontends.Json
