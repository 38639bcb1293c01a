import MicroFrontends.Decimal.Binary64

/-!
# The shortest decimal that reads back

`Binary64.shortest` finds the decimal with the fewest significant digits among those that are
nearer to the number than to any other, and of these the one nearest to it. It compares the two
neighbours of the number on the grid of decimals with one significant digit, two digits, and so on,
in exact arithmetic; seventeen digits always do.
-/

namespace MicroFrontends

/-- The decimal `0.d₁d₂… * 10 ^ point`, whose first and last digits are not zero unless it is
zero, which has one digit. -/
structure Decimal where
  digits : List Char
  point : Int
deriving DecidableEq, Repr, Inhabited

namespace Decimal

/-- `n * 10 ^ e`, without the zeros at the end of `n`. -/
def ofScaled (n : Nat) (e : Int) : Decimal :=
  let digits := Nat.toDigits 10 n
  let trimmed := (digits.reverse.dropWhile (· = '0')).reverse
  if trimmed = [] then ⟨['0'], 1⟩ else ⟨trimmed, digits.length + e⟩

end Decimal

namespace Binary64

/-- Three points on a common scale: the number itself and the ends of the interval of those that
are nearer to it than to its neighbours. One unit is a quarter of the number's last place. -/
structure Neighbourhood where
  low : Nat
  value : Nat
  high : Nat
  /-- The ends read back as the number, as its significand is even. -/
  closed : Bool

/-- The interval of the reals that round to a finite number, sign aside. -/
def neighbourhood (x : Binary64) : Neighbourhood :=
  let m := x.significand
  let gapBelow := if m = leadingBit && minPower < x.power then 1 else 2
  ⟨4 * m - gapBelow, 4 * m, 4 * m + 2, m % 2 = 0⟩

/-- `10 ^ e` over the unit of the neighbourhood, as a fraction. -/
def gridOverUnit (x : Binary64) (e : Int) : Nat × Nat :=
  let (n, d) := shift 1 1 (2 - x.power)
  if 0 ≤ e then (n * Nat.pow 10 e.toNat, d) else (n, d * Nat.pow 10 (-e).toNat)

/-- The multiple of `10 ^ e` that is nearest to the number, if one reads back. -/
def onGrid? (x : Binary64) (e : Int) : Option Nat :=
  let r := x.neighbourhood
  let (g, u) := x.gridOverUnit e
  let below := r.value * u / g
  let above := below + 1
  let belowFits := if r.closed then r.low * u ≤ below * g else r.low * u < below * g
  let aboveFits := if r.closed then above * g ≤ r.high * u else above * g < r.high * u
  let gapBelow := r.value * u - below * g
  let gapAbove := above * g - r.value * u
  match decide belowFits, decide aboveFits with
  | false, false => none
  | true, false => some below
  | false, true => some above
  | true, true =>
    if gapBelow < gapAbove then some below
    else if gapAbove < gapBelow then some above
    else some (if below % 2 = 0 then below else above)

/-- The exponent of the first significant digit of a finite number that is not zero. -/
def leadingExponent (x : Binary64) : Int :=
  let (n, d) := x.ratio
  -- the least positive number is above `10 ^ -324`
  ((Nat.toDigits 10 (n * Nat.pow 10 324 / d)).length : Int) - 325

/-- The shortest decimal that reads back as a finite number, sign aside. -/
def shortest (x : Binary64) : Decimal :=
  if x.isZero then ⟨['0'], 1⟩
  else
    let lead := x.leadingExponent
    let found := (List.range 17).findSome? fun (k : Nat) =>
      (x.onGrid? (lead - k)).map (Decimal.ofScaled · (lead - k))
    found.getD ⟨['0'], 1⟩

end Binary64

end MicroFrontends
