import MicroFrontends.Log
import MicroFrontends.Text.Fields

/-!
# Which entries are shown

A `LogFilter` says for the parts of the program which levels of their entries are shown. It is
written as rules with commas between them: `level`, `part` or `part=level`. For an entry the rule
with the longest name that its origin starts with counts.
-/

namespace MicroFrontends

/-- How many levels are shown, from the most to the least urgent. -/
abbrev LogDepth := Nat

/-- The depths that have a name. -/
def LogDepth.named : List (String × LogDepth) :=
  [("off", 0), ("error", 1), ("warn", 2), ("info", 3), ("debug", 4), ("trace", 5)]

/-- The depth of a name, in which capitals do not matter. -/
def LogDepth.ofName? (name : List Char) : Option LogDepth :=
  named.lookup (String.ofList (name.map Char.toLower))

/-- The least depth at which entries of a level are shown. -/
def LogLevel.depth : LogLevel → LogDepth
  | warn => 2
  | debug => 4

/-- What is shown of the parts whose name starts with a text. -/
structure LogRule where
  part : List Char
  depth : LogDepth
deriving DecidableEq, Repr

/-- What is shown of all parts. -/
abbrev LogFilter := List LogRule

namespace LogFilter

/-- The text without white space around it. -/
def trim (cs : List Char) : List Char :=
  ((cs.dropWhile Char.isWhitespace).reverse.dropWhile Char.isWhitespace).reverse

/-- The depth of a rule without a level. -/
def everything : LogDepth := 5

/-- The rule of a text. -/
def rule? (cs : List Char) : Option LogRule :=
  match Text.fields '=' cs with
  | [name] =>
    match LogDepth.ofName? name with
    | some depth => some ⟨[], depth⟩
    | none => some ⟨name, everything⟩
  | [part, level] =>
    if trim level = [] then some ⟨part, everything⟩
    else (LogDepth.ofName? (trim level)).map fun depth => ⟨part, depth⟩
  | _ => none

/-- The filter of a text. Texts that are no rules do not count, and without any rule errors alone
are shown. -/
def ofText (s : String) : LogFilter :=
  let texts := ((Text.fields ',' s.toList).map trim).filter (· ≠ [])
  match texts.filterMap rule? with
  | [] => [⟨[], 1⟩]
  | rules => rules

/-- The longer of two rules, the second one if they are equally long. -/
def longer (a : Option LogRule) (b : LogRule) : Option LogRule :=
  match a with
  | some a => if b.part.length < a.part.length then some a else some b
  | none => some b

/-- An entry is shown. -/
def shows (f : LogFilter) (e : LogEntry) : Bool :=
  let rules := f.filter fun rule => rule.part.isPrefixOf e.origin.toList
  match rules.foldl longer none with
  | some rule => decide (e.level.depth ≤ rule.depth)
  | none => false

end LogFilter

end MicroFrontends
