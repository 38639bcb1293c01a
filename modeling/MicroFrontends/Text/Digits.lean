/-!
# Whole numbers as text

* `Text.digitValue?` : the value of a digit;
* `Text.nat?` : the number that digits stand for;
* `Text.int64?` : the same with a sign, within 64 bits.
-/

namespace MicroFrontends.Text

/-- The value of a character that is a digit in some radix up to 16. -/
def hexValue? (c : Char) : Option Nat :=
  if '0' ≤ c && c ≤ '9' then some (c.toNat - '0'.toNat)
  else if 'a' ≤ c && c ≤ 'f' then some (c.toNat - 'a'.toNat + 10)
  else if 'A' ≤ c && c ≤ 'F' then some (c.toNat - 'A'.toNat + 10)
  else none

/-- The value of a character that is a digit in a radix. -/
def digitValue? (radix : Nat) (c : Char) : Option Nat := (hexValue? c).filter (· < radix)

/-- The number that digits stand for, of which there has to be at least one. -/
def nat? (radix : Nat) (cs : List Char) : Option Nat :=
  if cs = [] then none
  else cs.foldlM (fun n c => do return n * radix + (← digitValue? radix c)) 0

/-- A sign, which is true for minus, and what follows it. -/
def splitSign : List Char → Bool × List Char
  | '-' :: cs => (true, cs)
  | '+' :: cs => (false, cs)
  | cs => (false, cs)

/-- The number that digits with an optional sign stand for. -/
def int? (radix : Nat) (cs : List Char) : Option Int := do
  let (negative, digits) := splitSign cs
  let n ← nat? radix digits
  return if negative then -n else n

/-- The number fits into 64 bits with a sign. -/
def isInt64 (n : Int) : Bool := -(Nat.pow 2 63) ≤ n && n < Nat.pow 2 63

/-- The number that digits with an optional sign stand for, if it fits into 64 bits. -/
def int64? (radix : Nat) (cs : List Char) : Option Int := (int? radix cs).filter isInt64

end MicroFrontends.Text
