import MicroFrontends.Settings.Toml.Text

/-!
# Dates and times in TOML

A `Moment` is a date, a time of day, or both, and then perhaps how far the time is ahead of the
universal one. `Moment.toText` is the one form that a moment is given, whatever form it was read in.
-/

namespace MicroFrontends.Toml

/-! ## Digits -/

/-- The value of decimal digits. -/
def digitsValue (ds : List Char) : Nat := ds.foldl (fun n d => n * 10 + (d.toNat - '0'.toNat)) 0

/-- A number in at least `width` decimal digits. -/
def padded (width n : Nat) : String :=
  let digits := Nat.toDigits 10 n
  String.ofList (List.replicate (width - digits.length) '0' ++ digits)

/-- Reads a number of exactly `width` digits. -/
def readNumber (width : Nat) : Reader Nat := fun cs =>
  let ds := cs.takeWhile Char.isDigit
  if ds.length = width then some (digitsValue ds, cs.drop width) else none

/-- Reads a number of two digits that is within limits. -/
def readPart (least most : Nat) : Reader Nat := fun cs =>
  (readNumber 2 cs).filter fun (n, _) => least ≤ n && n ≤ most

/-- Reads a number of two digits after a separator. -/
def readPartAfter (separator : Char) (least most : Nat) : Reader Nat
  | c :: cs => if c = separator then readPart least most cs else none
  | [] => none

/-! ## Dates -/

/-- A day of the calendar. -/
structure Date where
  year : Nat
  month : Nat
  day : Nat
deriving DecidableEq, Repr

namespace Date

def isLeapYear (year : Nat) : Bool :=
  year % 4 = 0 && (year % 100 ≠ 0 || year % 400 = 0)

/-- How many days a month has. -/
def monthLength (year month : Nat) : Nat :=
  if month = 2 then if isLeapYear year then 29 else 28
  else if [4, 6, 9, 11].contains month then 30
  else 31

def read : Reader Date := fun cs => do
  let (year, cs) ← readNumber 4 cs
  let (month, cs) ← readPartAfter '-' 1 12 cs
  let (day, cs) ← readPartAfter '-' 1 (monthLength year month) cs
  return (⟨year, month, day⟩, cs)

def toText (d : Date) : String :=
  padded 4 d.year ++ "-" ++ padded 2 d.month ++ "-" ++ padded 2 d.day

end Date

/-! ## Times -/

/-- A time of day, which need not be told to the second, or to a fraction of it. -/
structure Time where
  hour : Nat
  minute : Nat
  second : Option Nat
  nanosecond : Option Nat
deriving DecidableEq, Repr

namespace Time

/-- The nanoseconds that the digits after a point stand for. What is less than one is left out. -/
def nanoseconds (ds : List Char) : Nat :=
  digitsValue (ds.take 9) * Nat.pow 10 (9 - ds.length)

/-- Reads the fraction of a second, if there is one. -/
def readFraction : Reader (Option Nat)
  | '.' :: cs =>
    let ds := cs.takeWhile Char.isDigit
    if ds = [] then none else some (nanoseconds ds, cs.drop ds.length)
  | cs => some (none, cs)

def read : Reader Time := fun cs => do
  let (hour, cs) ← readPart 0 23 cs
  let (minute, cs) ← readPartAfter ':' 0 59 cs
  if cs.head? = some ':' then
    let (second, cs) ← readPartAfter ':' 0 60 cs
    let (nanosecond, cs) ← readFraction cs
    return (⟨hour, minute, second, nanosecond⟩, cs)
  else return (⟨hour, minute, none, none⟩, cs)

/-- The digits of a fraction in nanoseconds, of which there is at least one. -/
def fractionText (nanosecond : Nat) : String :=
  let ds := ((padded 9 nanosecond).toList.reverse.dropWhile (· = '0')).reverse
  if ds = [] then "0" else String.ofList ds

def toText (t : Time) : String :=
  padded 2 t.hour ++ ":" ++ padded 2 t.minute
    ++ (t.second.elim "" fun s => ":" ++ padded 2 s)
    ++ (t.nanosecond.elim "" fun n => "." ++ fractionText n)

end Time

/-! ## How far a time is ahead -/

/-- How far a time is ahead of the universal one. -/
inductive Offset where
  | universal
  | minutes (n : Int)
deriving DecidableEq, Repr

namespace Offset

/-- The sign that a character is. -/
def sign? : Char → Option Int
  | '+' => some 1
  | '-' => some (-1)
  | _ => none

/-- Reads an offset, if there is one. -/
def read : Reader (Option Offset)
  | [] => some (none, [])
  | c :: cs =>
    if c = 'Z' || c = 'z' then some (some universal, cs)
    else match sign? c with
      | none => some (none, c :: cs)
      | some sign => do
        let (hours, cs) ← readPart 0 23 cs
        let (rest, cs) ← readPartAfter ':' 0 59 cs
        return (some (minutes (sign * (hours * 60 + rest : Nat))), cs)

def toText : Offset → String
  | universal => "Z"
  | minutes n =>
    (if n < 0 then "-" else "+") ++ padded 2 (n.natAbs / 60) ++ ":" ++ padded 2 (n.natAbs % 60)

end Offset

/-! ## Moments -/

/-- A date, a time of day, or both. -/
inductive Moment where
  | date (d : Date)
  | time (t : Time)
  | both (d : Date) (t : Time) (offset : Option Offset)
deriving DecidableEq, Repr

namespace Moment

/-- The text of the time that belongs to a date, if there is one. A space sets it off only if a
digit follows. -/
def timeAfter? : List Char → Option (List Char)
  | 'T' :: cs => some cs
  | 't' :: cs => some cs
  | ' ' :: c :: cs => if c.isDigit then some (c :: cs) else none
  | _ => none

def read : Reader Moment := fun cs =>
  match Date.read cs with
  | none => (Time.read cs).map fun (t, cs) => (time t, cs)
  | some (d, cs) =>
    match timeAfter? cs with
    | none => some (date d, cs)
    | some cs => do
      let (t, cs) ← Time.read cs
      let (offset, cs) ← Offset.read cs
      return (both d t offset, cs)

def toText : Moment → String
  | date d => d.toText
  | time t => t.toText
  | both d t offset => d.toText ++ "T" ++ t.toText ++ offset.elim "" Offset.toText

end Moment

end MicroFrontends.Toml
