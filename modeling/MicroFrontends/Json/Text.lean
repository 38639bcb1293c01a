import MicroFrontends.Json.Reader
import MicroFrontends.Text.Digits

/-!
# JSON texts

* `readText` : reads a text after its opening quote;
* `skipText` : the same for a text that nobody wants, of which less is asked: an escaped code
  point need not be a character, and bytes need not be valid UTF-8.
-/

namespace MicroFrontends.Json

/-- The value of four hexadecimal digits. -/
def hexValue4? (a b c e : Char) : Option Nat := do
  return 4096 * (← Text.hexValue? a) + 256 * (← Text.hexValue? b) + 16 * (← Text.hexValue? c) +
    (← Text.hexValue? e)

/-- The next four bytes are not hexadecimal digits, or there are fewer. -/
def blameHex {α : Type} (d : Document) : Except Failure α :=
  if d.size < 4 then blameLast .endInString [] else .error (.fault .invalidEscape d 4)

/-- Reads four hexadecimal digits. -/
def readHex : Reader Nat
  | .char a :: .char b :: .char c :: .char e :: rest =>
    match hexValue4? a b c e with
    | some n => .ok (n, rest)
    | none => blameHex (.char a :: .char b :: .char c :: .char e :: rest)
  | d => blameHex d

def isHighSurrogate (n : Nat) : Bool := 0xD800 ≤ n && n ≤ 0xDBFF

def isLowSurrogate (n : Nat) : Bool := 0xDC00 ≤ n && n ≤ 0xDFFF

/-- The character that a pair of surrogates stands for. -/
def ofSurrogates (high low : Nat) : Char :=
  .ofNat ((high - 0xD800) * 0x400 + (low - 0xDC00) + 0x10000)

/-- Reads the second half of a pair of surrogates. -/
def readLowSurrogate (high : Nat) : Reader Char
  | .char '\\' :: .char 'u' :: d => do
    let (low, rest) ← readHex d
    if isLowSurrogate low then return (ofSurrogates high low, rest)
    else blameLast .loneSurrogate rest
  | [.char '\\'] => blameLast .endInString []
  | .char '\\' :: d => blameNext .endOfHexEscape d
  | [] => blameLast .endInString []
  | d => blameNext .endOfHexEscape d

/-- Reads a code point in hexadecimal digits, after its `\u`. -/
def readCodePoint (d : Document) : Except Failure (Char × Document) := do
  let (n, rest) ← readHex d
  if isLowSurrogate n then blameLast .loneSurrogate rest
  else if isHighSurrogate n then readLowSurrogate n rest
  else return (.ofNat n, rest)

/-- The characters that a backslash and one more character stand for. -/
def simpleEscape? : Char → Option Char
  | '"' => some '"'
  | '\\' => some '\\'
  | '/' => some '/'
  | 'b' => some '\x08'
  | 'f' => some '\x0c'
  | 'n' => some '\n'
  | 'r' => some '\r'
  | 't' => some '\t'
  | _ => none

/-- Reads an escaped character, after its backslash. -/
def readEscape : Reader Char
  | [] => blameLast .endInString []
  | .char 'u' :: rest => readCodePoint rest
  | .char c :: rest =>
    match simpleEscape? c with
    | some e => .ok (e, rest)
    | none => blameNext .invalidEscape (.char c :: rest)
  | d => blameNext .invalidEscape d

/-- A text up to its closing quote, and the rest of the document. -/
structure Scanned where
  chars : List Char
  /-- The number of bytes of the text once what is escaped in it has been resolved. -/
  size : Nat
  /-- How many of these bytes are left from the first one on that belongs to no character. -/
  spoilt? : Option Nat
  rest : Document

namespace Scanned

/-- The text with a character before it. -/
def push (s : Scanned) (c : Char) : Scanned :=
  ⟨c :: s.chars, c.utf8Size + s.size, s.spoilt?, s.rest⟩

/-- The text with a byte before it that belongs to no character. -/
def spoil (s : Scanned) : Scanned := ⟨s.chars, s.size + 1, some (s.size + 1), s.rest⟩

end Scanned

theorem readHex_length {d rest : Document} {n : Nat} (h : readHex d = .ok (n, rest)) :
    rest.length < d.length := by
  unfold readHex at h
  split at h
  · split at h
    · cases h; simp only [List.length_cons]; omega
    · unfold blameHex at h; split at h <;> cases h
  · unfold blameHex at h; split at h <;> cases h

theorem readLowSurrogate_length {d rest : Document} {n : Nat} {c : Char}
    (h : readLowSurrogate n d = .ok (c, rest)) : rest.length < d.length := by
  unfold readLowSurrogate at h
  split at h
  · next d =>
    simp only [bind, Except.bind] at h
    split at h
    · cases h
    · next v hv =>
      obtain ⟨low, r⟩ := v
      have := readHex_length hv
      simp only [pure, Except.pure] at h
      split at h
      · simp only [Except.ok.injEq, Prod.mk.injEq] at h
        obtain ⟨-, rfl⟩ := h
        simp only [List.length_cons]; omega
      · cases h
  all_goals cases h

theorem readEscape_length {d rest : Document} {c : Char} (h : readEscape d = .ok (c, rest)) :
    rest.length < d.length := by
  unfold readEscape at h
  split at h
  · cases h
  · next d =>
    simp only [readCodePoint, bind, Except.bind] at h
    split at h
    · cases h
    · next v hv =>
      obtain ⟨n, r⟩ := v
      have := readHex_length hv
      dsimp only at h
      split at h
      · cases h
      · split at h
        · have := readLowSurrogate_length h
          simp only [List.length_cons]; omega
        · cases h; simp only [List.length_cons]; omega
  · split at h
    · cases h; simp
    · cases h
  · cases h

/-- Reads up to the closing quote. -/
def scanText (d : Document) : Except Failure Scanned :=
  match d with
  | [] => blameLast .endInString []
  | .char '"' :: rest => .ok ⟨[], 0, none, rest⟩
  | .char '\\' :: rest =>
    match _h : readEscape rest with
    | .error e => .error e
    | .ok (c, rest) => (scanText rest).map (·.push c)
  | .char c :: rest =>
    if c.toNat < 0x20 then blameNext .controlCharacter (.char c :: rest)
    else (scanText rest).map (·.push c)
  | .junk _ :: rest => (scanText rest).map Scanned.spoil
termination_by d.length
decreasing_by
  · have := readEscape_length _h
    simp only [List.length_cons]
    omega
  all_goals simp

/-- Reads a text after its opening quote. A byte that belongs to no character is blamed only at the
closing quote. Its place is counted back from there in bytes of the resolved text, so that it is
exact where nothing after it is escaped. -/
def readText : Reader String := fun d => do
  let s ← scanText d
  match s.spoilt? with
  | some n => .error (.fault .invalidCodePoint d (d.size - s.rest.size - n))
  | none => return (String.ofList s.chars, s.rest)

/-- Skips a text after its opening quote. -/
def skipText (d : Document) : Except Failure Document :=
  match d with
  | [] => blameLast .endInString []
  | .char '"' :: rest => .ok rest
  | [.char '\\'] => blameLast .endInString []
  | .char '\\' :: .char 'u' :: .char a :: .char b :: .char c :: .char e :: rest =>
    match hexValue4? a b c e with
    | some _ => skipText rest
    | none => blameHex (.char a :: .char b :: .char c :: .char e :: rest)
  | .char '\\' :: .char 'u' :: rest => blameHex rest
  | .char '\\' :: .char c :: rest =>
    if (simpleEscape? c).isSome then skipText rest
    else blameNext .invalidEscape (.char c :: rest)
  | .char '\\' :: rest => blameNext .invalidEscape rest
  | .char c :: rest =>
    if c.toNat < 0x20 then blameLast .controlCharacter (.char c :: rest) else skipText rest
  | .junk _ :: rest => skipText rest

end MicroFrontends.Json
