import MicroFrontends.Proofs.Selector.Layout

/-!
# Which texts are the empty selector

A selector's text is trimmed before it is looked at whether anything is left, and the lexer skips
blanks wherever they are. Both come to the same for every text.

* `Wordless source` : the text has no token but the one for its end;
* `wordless_iff` : these are the blank texts;
* `Selector.parse_empty_iff` : these are the texts that are the empty selector, and the only ones
  that `Expr.parse` refuses for their first token being their end.
-/

namespace MicroFrontends

/-- The only token of the text is the one for its end. -/
def Wordless (source : String) : Prop := ∃ t, tokenize source = .ok [t] ∧ t.kind = .endOfInput

/-- A text that begins with its end has nothing before it. -/
theorem Spelled.all_blank_of_endOfInput {offset : Nat} {text : List Char} {t : Token}
    {others : List Token} (h : Spelled offset text (t :: others)) (ht : t.kind = .endOfInput) :
    others = [] ∧ ∀ c ∈ text, isBlank c = true := by
  cases h with
  | finish hb => exact ⟨rfl, hb⟩
  | token hb hstart hk hstop he h =>
    obtain rfl := ht
    exact hk.elim

theorem tokenize_of_blank {source : String} (h : ∀ c ∈ source.toList, isBlank c = true) :
    tokenize source = .ok [.endAt source.utf8ByteSize] := by
  have hspelled : Spelled 0 source.toList [.endAt (0 + Text.byteLength source.toList)] := .finish h
  rw [Nat.zero_add, Text.byteLength_toList] at hspelled
  exact hspelled.tokens_eq_ok

theorem blank_of_tokenize {source : String} {t : Token} {others : List Token}
    (h : tokenize source = .ok (t :: others)) (ht : t.kind = .endOfInput) :
    others = [] ∧ ∀ c ∈ source.toList, isBlank c = true :=
  (Lexer.tokens_eq_ok_iff.mp h).all_blank_of_endOfInput ht

theorem wordless_iff {source : String} : Wordless source ↔ source.toList.all isBlank = true := by
  rw [List.all_eq_true]
  constructor
  · rintro ⟨t, htokens, ht⟩
    exact (blank_of_tokenize htokens ht).2
  · intro h
    exact ⟨_, tokenize_of_blank h, rfl⟩

/-- The end is no operand. -/
theorem parseTokens_endOfInput (span : Span) :
    parseTokens [⟨.endOfInput, span⟩] =
      .error ⟨.operand, TokenKind.endOfInput.describe, span.start⟩ := by
  have hprimary : parsePrimary maxDepth [⟨.endOfInput, span⟩] =
      .error ⟨.operand, [⟨.endOfInput, span⟩]⟩ := parsePrimary.eq_4 _ _ (by simp) (by simp)
  have hunary : parseUnary maxDepth [⟨.endOfInput, span⟩] = _ := parseUnary.eq_3 _ _ (by simp)
  rw [parseTokens, parseOr, parseAnd, hunary, hprimary]
  rfl

theorem Expr.parse_of_blank {source : String} (h : ∀ c ∈ source.toList, isBlank c = true) :
    Expr.parse source = .error
      (.syntactic ⟨.operand, TokenKind.endOfInput.describe, source.utf8ByteSize⟩) := by
  rw [Expr.parse, tokenize_of_blank h]
  show (parseTokens [.endAt source.utf8ByteSize]).mapError SelectorError.syntactic = _
  rw [Token.endAt, parseTokens_endOfInput]
  rfl

/-- A text is the empty selector exactly if it has no token but the one for its end, and any other
text is what `Expr.parse` makes of it, an expression or an error. So nothing is left of a text after
trimming exactly if the lexer finds nothing in it, and this is where `Expr.parse` would miss an
operand at the end that is the first token. -/
theorem Selector.parse_empty_iff (source : String) :
    (Selector.parse source = .ok .all ↔ Wordless source) ∧
      (¬ Wordless source → Selector.parse source = (Expr.parse source).map (⟨some ·⟩)) ∧
      (Selector.trim source.toList = [] ↔ Wordless source) ∧
      (Selector.parse source = .ok .all ↔
        ∃ t others, tokenize source = .ok (t :: others) ∧ t.kind = .endOfInput ∧
          Expr.parse source = .error (.syntactic ⟨.operand, t.kind.describe, t.span.start⟩)) := by
  have hempty : Selector.parse source = .ok .all ↔ Wordless source := by
    rw [wordless_iff, Selector.parse_eq]
    cases source.toList.all isBlank with
    | true => simp
    | false => cases Expr.parse source <;> simp [Except.map, Selector.all]
  refine ⟨hempty, ?_, ?_, hempty.trans ?_⟩
  · intro hwords
    rw [wordless_iff] at hwords
    rw [Selector.parse_eq, if_neg hwords]
  · rw [wordless_iff, ← Selector.isEmpty_trim, List.isEmpty_iff]
  · constructor
    · intro h
      have hblank := List.all_eq_true.mp (wordless_iff.mp h)
      exact ⟨_, [], tokenize_of_blank hblank, rfl, Expr.parse_of_blank hblank⟩
    · rintro ⟨t, others, htokens, ht, -⟩
      obtain ⟨rfl, -⟩ := blank_of_tokenize htokens ht
      exact ⟨t, htokens, ht⟩

end MicroFrontends
