import MicroFrontends.Decimal.Binary64
import MicroFrontends.Text.Digits

/-!
# Decimal numbers as text

* `Binary64.ofDecimal` : the number nearest to some digits times a power of ten;
* `Binary64.ofText?` : the number nearest to what a text stands for.

Both round once, however many digits there are.
-/

namespace MicroFrontends.Binary64

/-- From this power of ten on every number is too large, and below its inverse too small. -/
def extremePower : Int := 400

/-- The number nearest to `digits * 10 ^ exponent`. What is too large becomes infinite. -/
def ofDecimal (negative : Bool) (digits : Nat) (exponent : Int) : Binary64 :=
  let top := exponent + (Nat.toDigits 10 digits).length
  let x :=
    if digits = 0 || top < -extremePower then zero false
    else if extremePower < top then infinity false
    else if 0 ≤ exponent then ofNat (digits * Nat.pow 10 exponent.toNat)
    else ofRatio digits (Nat.pow 10 (-exponent).toNat)
  if negative then x.neg else x

/-- The exponent at the end of a number's text, where nothing stands for zero. -/
def exponent? : List Char → Option Int
  | [] => some 0
  | c :: cs => if c = 'e' || c = 'E' then Text.int? 10 cs else none

/-- The number that a text stands for: a sign or none, digits of which a point may stand anywhere,
and an exponent or none. -/
def ofText? (cs : List Char) : Option Binary64 := do
  let (negative, cs) := Text.splitSign cs
  let whole := cs.takeWhile Char.isDigit
  let (fraction, rest) := match cs.dropWhile Char.isDigit with
    | '.' :: cs => (cs.takeWhile Char.isDigit, cs.dropWhile Char.isDigit)
    | cs => ([], cs)
  let digits ← Text.nat? 10 (whole ++ fraction)
  let exponent ← exponent? rest
  return ofDecimal negative digits (exponent - fraction.length)

end MicroFrontends.Binary64
