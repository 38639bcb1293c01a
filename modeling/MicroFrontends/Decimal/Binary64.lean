/-!
# Binary floating point numbers of 64 bits

A `Binary64` is its bit pattern: a sign, eleven bits of exponent and 52 bits of fraction. A finite
one has the exact value `significand * 2 ^ power`, up to its sign, and all arithmetic is done on
exact fractions and rounded once.

* `Binary64.ofRatio` : the number nearest to a fraction, a tie goes to the even significand;
* `Binary64.mul`, `Binary64.div` : the product and the quotient, each rounded;
* `Binary64.orderKey` : the total order, in which `-0.0` is below `0.0`.
-/

namespace MicroFrontends

/-- A floating point number by its bit pattern, of which two are equal iff they are the same. -/
structure Binary64 where
  bits : UInt64
deriving DecidableEq, Repr, Inhabited

namespace Binary64

/-- The least power of two that a significand is multiplied by. -/
def minPower : Int := -1074

/-- What the leading bit of a significand counts, with the least bit for one. -/
def leadingBit : Nat := Nat.pow 2 52

/-- The bit that is set in negative numbers. -/
def signBit : Nat := Nat.pow 2 63

/-- The patterns below this one, sign aside, are the finite numbers. -/
def infinityBits : Nat := 2047 * leadingBit

def negative (x : Binary64) : Bool := signBit ≤ x.bits.toNat

/-- The pattern without its sign. -/
def magnitude (x : Binary64) : Nat := x.bits.toNat % signBit

def isInfinite (x : Binary64) : Bool := x.magnitude = infinityBits

def isZero (x : Binary64) : Bool := x.magnitude = 0

/-- The factor of the exact value that is a natural number. -/
def significand (x : Binary64) : Nat :=
  if x.magnitude < leadingBit then x.magnitude else x.magnitude % leadingBit + leadingBit

/-- The power of two by which the significand is multiplied. -/
def power (x : Binary64) : Int :=
  if x.magnitude < leadingBit then minPower else (x.magnitude / leadingBit : Nat) - 1 + minPower

/-- The number with the given sign and pattern of the magnitude. -/
def ofMagnitude (negative : Bool) (magnitude : Nat) : Binary64 :=
  ⟨.ofNat (magnitude + if negative then signBit else 0)⟩

/-- Zero, which has a sign. -/
def zero (negative : Bool) : Binary64 := ofMagnitude negative 0

def infinity (negative : Bool) : Binary64 := ofMagnitude negative infinityBits

/-- The result that is not a number. -/
def nan : Binary64 := ofMagnitude false (infinityBits + leadingBit / 2)

def isNaN (x : Binary64) : Bool := infinityBits < x.magnitude

/-- The number with the opposite sign. -/
def neg (x : Binary64) : Binary64 := ofMagnitude (!x.negative) x.magnitude

/-- The quotient rounded to the nearest natural number, a tie to the even one. -/
def roundHalfEven (num den : Nat) : Nat :=
  let q := num / den
  let twice := 2 * (num % den)
  if twice < den then q
  else if den < twice then q + 1
  else q + q % 2

/-- The fraction `num / den * 2 ^ e` as a pair of natural numbers. -/
def shift (num den : Nat) (e : Int) : Nat × Nat :=
  if 0 ≤ e then (num * Nat.pow 2 e.toNat, den) else (num, den * Nat.pow 2 (-e).toNat)

/-- The largest `k` with `2 ^ k ≤ num / den`, for a positive fraction. -/
def log2Floor (num den : Nat) : Int :=
  let k : Int := num.log2 - den.log2
  let (n, d) := shift num den (-k)
  if d ≤ n then k else k - 1

/-- The number nearest to `num / den`, a tie to the even significand. What is too large becomes
infinite. -/
def ofRatio (num den : Nat) : Binary64 :=
  if num = 0 then zero false
  else
    let p := max minPower (log2Floor num den - 52)
    let (n, d) := shift num den (-p)
    let m := (p - minPower).toNat * leadingBit + roundHalfEven n d
    ofMagnitude false (min m infinityBits)

def ofNat (n : Nat) : Binary64 := ofRatio n 1

def ofInt (n : Int) : Binary64 := if n < 0 then (ofNat n.natAbs).neg else ofNat n.natAbs

/-- The exact value of a finite number, sign aside, as a fraction. -/
def ratio (x : Binary64) : Nat × Nat := shift x.significand 1 x.power

/-- The product of two finite numbers that are not negative. -/
def mul (x y : Binary64) : Binary64 :=
  ofRatio (x.ratio.1 * y.ratio.1) (x.ratio.2 * y.ratio.2)

/-- The quotient of two finite numbers that are not negative, the second not zero. -/
def div (x y : Binary64) : Binary64 :=
  ofRatio (x.ratio.1 * y.ratio.2) (x.ratio.2 * y.ratio.1)

/-- Numbers are ordered as their keys: by value, with `-0.0` below `0.0`. -/
def orderKey (x : Binary64) : Int :=
  if x.negative then -(x.magnitude : Int) - 1 else x.magnitude

end Binary64

end MicroFrontends
