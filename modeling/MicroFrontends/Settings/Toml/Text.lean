import MicroFrontends.Text.Digits

/-!
# Texts in TOML

* `Toml.skipSpace` : the text after white space, line breaks and comments;
* `Toml.restOfLine?` : the text after a line that has nothing more to say;
* `Toml.readText` : texts in quotes, which may span lines in quotes of three.

A line ends with a line feed, before which a carriage return may stand.
-/

namespace MicroFrontends.Toml

/-- Reads something from the start of a text. -/
abbrev Reader (α : Type) := List Char → Option (α × List Char)

/-! ## White space, line breaks and comments -/

/-- White space within a line. -/
def isBlank (c : Char) : Bool := c = ' ' || c = '\t'

def skipBlanks (cs : List Char) : List Char := cs.dropWhile isBlank

/-- Characters that stand nowhere but where lines end. -/
def isControl (c : Char) : Bool := (c.toNat < 0x20 && c ≠ '\t') || c.toNat = 0x7f

/-- The text after a line break, if one comes next. -/
def afterBreak? : List Char → Option (List Char)
  | '\n' :: cs => some cs
  | '\r' :: '\n' :: cs => some cs
  | _ => none

/-- Skips white space and line breaks. -/
def skipBreaks : List Char → List Char
  | '\n' :: cs => skipBreaks cs
  | '\r' :: '\n' :: cs => skipBreaks cs
  | c :: cs => if isBlank c then skipBreaks cs else c :: cs
  | [] => []

/-- Skips white space, line breaks and comments. It stops at a control character within a comment,
with which nothing goes on. -/
def skipSpace (isComment : Bool) : List Char → List Char
  | '\n' :: cs => skipSpace false cs
  | '\r' :: '\n' :: cs => skipSpace false cs
  | c :: cs =>
    if isControl c then c :: cs
    else if isComment || isBlank c then skipSpace isComment cs
    else if c = '#' then skipSpace true cs
    else c :: cs
  | [] => []

/-- The text after this line, if nothing but a comment is left of the line. -/
def restOfLine? (cs : List Char) : Option (List Char) :=
  let cs := skipBlanks cs
  let rest := if cs.head? = some '#' then cs.dropWhile (fun c => !isControl c) else cs
  if rest = [] then some [] else afterBreak? rest

theorem length_skipBreaks_le (cs : List Char) : (skipBreaks cs).length ≤ cs.length := by
  fun_induction skipBreaks cs with
  | case1 cs ih => exact Nat.le_succ_of_le ih
  | case2 cs ih => exact Nat.le_succ_of_le (Nat.le_succ_of_le ih)
  | case3 c cs _ _ _ ih => exact Nat.le_succ_of_le ih
  | case4 => exact Nat.le_refl _
  | case5 => exact Nat.le_refl _

/-! ## Escaped characters -/

/-- The character that a letter after a backslash stands for. -/
def escape? : Char → Option Char
  | 'b' => some '\x08'
  | 't' => some '\t'
  | 'n' => some '\n'
  | 'f' => some '\x0c'
  | 'r' => some '\r'
  | 'e' => some '\x1b'
  | '"' => some '"'
  | '\\' => some '\\'
  | _ => none

/-- How many digits a code point has after a letter. -/
def codePointDigits? : Char → Option Nat
  | 'x' => some 2
  | 'u' => some 4
  | 'U' => some 8
  | _ => none

/-- The character with a code point in hexadecimal digits. -/
def ofCodePoint? (digits : List Char) : Option Char :=
  (Text.nat? 16 digits).bind fun n => if n.isValidChar then some (.ofNat n) else none

/-- Reads an escaped character, after its backslash. -/
def readEscape : Reader Char
  | [] => none
  | c :: cs =>
    match escape? c with
    | some e => some (e, cs)
    | none =>
      match codePointDigits? c with
      | some n =>
        if n ≤ cs.length then (ofCodePoint? (cs.take n)).map fun e => (e, cs.drop n) else none
      | none => none

theorem length_rest_readEscape {cs rest : List Char} {e : Char}
    (h : readEscape cs = some (e, rest)) : rest.length < cs.length := by
  unfold readEscape at h
  split at h
  · cases h
  · split at h
    · cases h
      simp
    · split at h
      · split at h
        · obtain ⟨c, -, hc⟩ := Option.map_eq_some_iff.1 h
          cases hc
          simp only [List.length_drop, List.length_cons]
          omega
        · cases h
      · cases h

/-! ## Texts in quotes -/

/-- The result of a reader with some characters put before it. -/
def prepend (before : List Char) (s : Option (List Char × List Char)) :
    Option (List Char × List Char) :=
  s.map fun (text, rest) => (before ++ text, rest)

/-- Reads a text after its quote, which ends it as well. Only between double quotes a backslash
escapes. -/
def readLine (quote : Char) (cs : List Char) : Option (List Char × List Char) :=
  match cs with
  | [] => none
  | c :: cs =>
    if c = quote then some ([], cs)
    else if c = '\\' && quote = '"' then
      match _h : readEscape cs with
      | some (e, rest) => prepend [e] (readLine quote rest)
      | none => none
    else if isControl c then none
    else prepend [c] (readLine quote cs)
termination_by cs.length
decreasing_by
  · have := length_rest_readEscape _h
    simp only [List.length_cons]; omega
  · simp

/-- Reads a text after its three quotes, and the three quotes that end it. Up to two more quotes
right before these belong to the text. -/
def readLines (quote : Char) (cs : List Char) : Option (List Char × List Char) :=
  match cs with
  | [] => none
  | c :: cs =>
    if c = quote then
      let more := (cs.takeWhile (· = quote)).length
      if more < 2 then prepend [c] (readLines quote cs)
      else if more < 5 then some (List.replicate (more - 2) quote, cs.drop more)
      else none
    else if c = '\\' && quote = '"' then
      if (afterBreak? (skipBlanks cs)).isSome then readLines quote (skipBreaks cs)
      else match _h : readEscape cs with
        | some (e, rest) => prepend [e] (readLines quote rest)
        | none => none
    else if isControl c && (afterBreak? (c :: cs)).isNone then none
    else prepend [c] (readLines quote cs)
termination_by cs.length
decreasing_by
  · simp
  · have := length_skipBreaks_le cs
    simp only [List.length_cons]; omega
  · have := length_rest_readEscape _h
    simp only [List.length_cons]; omega
  · simp

/-- Reads a text after its first quote. A line break right after three quotes does not count. -/
def readText (quote : Char) : Reader String := fun cs => do
  let (text, rest) ←
    if cs.take 2 = [quote, quote] then
      let inner := cs.drop 2
      readLines quote ((afterBreak? inner).getD inner)
    else readLine quote cs
  return (String.ofList text, rest)

end MicroFrontends.Toml
