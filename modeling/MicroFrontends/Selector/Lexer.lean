import MicroFrontends.Selector.Error
import MicroFrontends.Text.Bytes

/-!
# Splitting selector text into tokens

* `Lexeme.read?` : the token at the very start of a text, with its spelling and what follows it;
  spelling and rest make up the text (`Lexeme.spelling_append_rest`);
* `Lexer.next` : the streaming lexer, which is exhausted after the end of the text or an error;
* `tokenize` : all tokens of a text, the last of which stands for its end.

Words, the labels and unquoted values, are read greedily. Blanks may stand between any two tokens.
-/

namespace MicroFrontends

/-! ## Character classes -/

/-- The characters that may stand between tokens. -/
def isBlank (c : Char) : Bool := c = ' ' || c = '\t' || c = '\r' || c = '\n' || c = '\x0c'

/-- The characters that begin a word. -/
def isWordStart (c : Char) : Bool := c.isAlphanum

/-- The characters that continue a word. -/
def isWordChar (c : Char) : Bool := c.isAlphanum || c = '.' || c = '_' || c = '-'

/-- The text is one word, as a label or an unquoted value is written. -/
def isWord : List Char → Bool
  | [] => false
  | c :: cs => isWordStart c && cs.all isWordChar

/-! ## One token -/

/-- A token's kind, its spelling, and the text after it. -/
structure Lexeme where
  kind : TokenKind
  spelling : List Char
  rest : List Char

namespace Lexeme

/-- The token at the start of a text, if one begins there and, when it is quoted, also ends. -/
def read? : List Char → Option Lexeme
  | '&' :: '&' :: r => some ⟨.and, ['&', '&'], r⟩
  | '|' :: '|' :: r => some ⟨.or, ['|', '|'], r⟩
  | '!' :: '=' :: r => some ⟨.notEquals, ['!', '='], r⟩
  | '!' :: r => some ⟨.not, ['!'], r⟩
  | '=' :: r => some ⟨.equals, ['='], r⟩
  | '(' :: r => some ⟨.lparen, ['('], r⟩
  | ')' :: r => some ⟨.rparen, [')'], r⟩
  | '"' :: r =>
    let body := r.takeWhile (· != '"')
    match r.dropWhile (· != '"') with
    | q :: rest => some ⟨.string (String.ofList body), '"' :: body ++ [q], rest⟩
    | [] => none
  | c :: r =>
    let word := c :: r.takeWhile isWordChar
    if isWordStart c then some ⟨.label (String.ofList word), word, r.dropWhile isWordChar⟩
    else none
  | [] => none

/-- A token's spelling and the text after it make up the text read. -/
theorem spelling_append_rest {cs : List Char} {l : Lexeme} (h : read? cs = some l) :
    l.spelling ++ l.rest = cs := by
  unfold read? at h
  split at h
  case h_8 r =>
    have hr := List.takeWhile_append_dropWhile (p := (· != '"')) (l := r)
    dsimp only at h
    split at h
    · next q rest hd =>
      cases h
      rw [hd] at hr
      simpa using hr
    · cases h
  case h_9 c r _ _ _ _ _ _ _ _ =>
    dsimp only at h
    split at h
    · cases h
      simp [List.takeWhile_append_dropWhile]
    · cases h
  all_goals cases h <;> rfl

theorem spelling_ne_nil {cs : List Char} {l : Lexeme} (h : read? cs = some l) :
    l.spelling ≠ [] := by
  unfold read? at h
  split at h
  case h_8 r =>
    dsimp only at h
    split at h <;> cases h
    simp
  case h_9 c r _ _ _ _ _ _ _ _ =>
    dsimp only at h
    split at h <;> cases h
    simp
  all_goals cases h <;> simp

theorem length_rest_lt {cs : List Char} {l : Lexeme} (h : read? cs = some l) :
    l.rest.length < cs.length := by
  have hl := congrArg List.length (spelling_append_rest h)
  have hs := List.length_pos_iff.mpr (spelling_ne_nil h)
  rw [List.length_append] at hl
  omega

end Lexeme

/-! ## All tokens -/

/-- What is wrong with a text that begins with `c` but with no token: an opening quote has no
closing one, and any other character is out of place. -/
def LexError.at (offset : Nat) (c : Char) (r : List Char) : LexError :=
  if c = '"' then .unterminated (String.ofList (c :: r)) offset else .unexpectedChar c offset

/-- The lexer within a text: before the characters that are left, or done. -/
inductive Lexer where
  | before (offset : Nat) (text : List Char)
  | exhausted

namespace Lexer

/-- The lexer before the first character of a text. -/
def ofText (source : String) : Lexer := before 0 source.toList

/-- The next token or the error that ends the text, and the lexer after it. -/
def next : Lexer → Option (Except LexError Token × Lexer)
  | exhausted => none
  | before offset text =>
    let start := offset + Text.byteLength (text.takeWhile isBlank)
    match text.dropWhile isBlank with
    | [] => some (.ok (.endAt start), exhausted)
    | c :: r =>
      match Lexeme.read? (c :: r) with
      | some l =>
        let stop := start + Text.byteLength l.spelling
        some (.ok ⟨l.kind, start, stop⟩, before stop l.rest)
      | none => some (.error (.at start c r), exhausted)

/-- The number of characters that are left to read, counting the end of the text as one. -/
def size : Lexer → Nat
  | exhausted => 0
  | before _ text => text.length + 1

theorem size_next_lt {lexer after : Lexer} {r : Except LexError Token}
    (h : lexer.next = some (r, after)) : after.size < lexer.size := by
  cases lexer with
  | exhausted => cases h
  | before offset text =>
    simp only [next] at h
    split at h
    · cases h; simp [size]
    · next c r heq =>
      split at h
      · next l hl =>
        cases h
        have h1 := Lexeme.length_rest_lt hl
        have h2 := (List.dropWhile_sublist (l := text) isBlank).length_le
        rw [heq] at h2
        simp only [size]
        omega
      · cases h; simp [size]

/-- All tokens that are left, or the first error. -/
def tokens (lexer : Lexer) : Except LexError (List Token) :=
  match _h : lexer.next with
  | none => .ok []
  | some (.error e, _) => .error e
  | some (.ok token, after) => (after.tokens).map (token :: ·)
termination_by lexer.size
decreasing_by exact size_next_lt _h

end Lexer

/-- The tokens of a text, ending with the one that stands for its end. -/
def tokenize (source : String) : Except LexError (List Token) := (Lexer.ofText source).tokens

end MicroFrontends
