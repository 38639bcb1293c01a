import MicroFrontends.Decimal.Shortest

/-!
# Texts of floating point numbers

* `Binary64.renderShort` : the form that stored data uses. Decimal exponents from -5 to 15 are
  written positionally, with at least one digit after the point, and others in exponent notation;
* `Binary64.renderPlain` : always positional, and without a point if the number is whole.
-/

namespace MicroFrontends

namespace Decimal

/-- The digits before and after the point of the positional form, the latter possibly none. -/
def positional (d : Decimal) : List Char × List Char :=
  let n := d.digits.length
  if d.point ≤ 0 then (['0'], List.replicate (-d.point).toNat '0' ++ d.digits)
  else if d.point < n then (d.digits.take d.point.toNat, d.digits.drop d.point.toNat)
  else (d.digits ++ List.replicate (d.point.toNat - n) '0', [])

/-- One digit before the point, the others after it if there are any, and the exponent. -/
def scientific (d : Decimal) : List Char :=
  let e := d.point - 1
  let mantissa := match d.digits with
    | [] => ['0']
    | [c] => [c]
    | c :: cs => c :: '.' :: cs
  mantissa ++ ['e', if e < 0 then '-' else '+'] ++ Nat.toDigits 10 e.natAbs

/-- Positional form with at least one digit after the point, or exponent notation. -/
def renderShort (d : Decimal) : List Char :=
  let e := d.point - 1
  if -5 ≤ e && e ≤ 15 then
    let (whole, fraction) := d.positional
    whole ++ '.' :: (if fraction = [] then ['0'] else fraction)
  else d.scientific

/-- Positional form, without a point if there are no digits after it. -/
def renderPlain (d : Decimal) : List Char :=
  let (whole, fraction) := d.positional
  if fraction = [] then whole else whole ++ '.' :: fraction

end Decimal

namespace Binary64

/-- The text with a sign in front if the number is negative. -/
def withSign (x : Binary64) (text : List Char) : String :=
  String.ofList (if x.negative then '-' :: text else text)

/-- The text of a finite number in stored data. -/
def renderShort (x : Binary64) : String := x.withSign x.shortest.renderShort

/-- The positional text of a finite number, and a word for any other. -/
def renderPlain (x : Binary64) : String :=
  if x.isNaN then "NaN"
  else x.withSign (if x.isInfinite then ['i', 'n', 'f'] else x.shortest.renderPlain)

end Binary64

end MicroFrontends
