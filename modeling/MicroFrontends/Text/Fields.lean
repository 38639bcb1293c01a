/-!
# Texts of several fields

`Text.fields` splits a text at a separator, `Text.firstField?` splits off the first field, and
`Text.firstLine` is the first line.
-/

namespace MicroFrontends.Text

/-- The parts between the separators, of which there is one more than there are separators. -/
def fields (separator : Char) : List Char → List (List Char)
  | [] => [[]]
  | c :: cs =>
    if c = separator then [] :: fields separator cs
    else match fields separator cs with
      | [] => [[c]]
      | f :: fs => (c :: f) :: fs

/-- The text before the first separator and the text after it, if there is one. -/
def firstField? (separator : Char) : List Char → Option (List Char × List Char)
  | [] => none
  | c :: cs =>
    if c = separator then some ([], cs)
    else (firstField? separator cs).map fun (field, rest) => (c :: field, rest)

theorem firstField?_eq_some {separator : Char} {cs field rest : List Char} :
    firstField? separator cs = some (field, rest) ↔
      cs = field ++ separator :: rest ∧ separator ∉ field := by
  induction cs generalizing field with
  | nil => simp [firstField?]
  | cons c cs ih =>
    by_cases hc : c = separator
    · simp only [firstField?, if_pos hc, Option.some.injEq, Prod.mk.injEq]
      cases field <;> grind
    · simp only [firstField?, if_neg hc, Option.map_eq_some_iff, Prod.exists]
      cases field <;> grind

/-- The text before the first line feed, and before the carriage return that may belong to it. -/
def firstLine (cs : List Char) : List Char :=
  match firstField? '\n' cs with
  | some (line, _) => if line.getLast? = some '\r' then line.dropLast else line
  | none => cs

end MicroFrontends.Text
