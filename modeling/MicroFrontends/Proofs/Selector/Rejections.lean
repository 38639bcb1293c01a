import MicroFrontends.Proofs.Selector.Stream
import MicroFrontends.Proofs.Selector.SyntaxErrors

/-!
# Why texts are rejected

* `Rejected source error` : the error names a place of the text where no token begins, or one of its
  tokens;
* `Selector.rejected` : so does every error for which a text is rejected;
* `Selector.parse_of_tokenize_error`, `tokenize_blanks_error` : texts that have no first token are
  rejected.
-/

namespace MicroFrontends

/-- The error names a place of the text where no token begins, or one of its tokens. -/
inductive Rejected (source : String) : SelectorError → Prop where
  | lexical {before rest : List Char} {c : Char} (htext : source.toList = before ++ c :: rest)
      (hc : isBlank c = false) (h : Lexeme.read? (c :: rest) = none) :
      Rejected source (.lexical (.at (Text.byteLength before) c rest))
  | syntactic {tokens : List Token} {t : Token} (x : Expected) (h : tokenize source = .ok tokens)
      (ht : t ∈ tokens) : Rejected source (.syntactic ⟨x, t.kind.describe, t.span.start⟩)

/-! ## The two stages -/

theorem tokenize_rejected {source : String} {e : LexError} (h : tokenize source = .error e) :
    Rejected source (.lexical e) := by
  obtain ⟨l, rest, last, htext, -, hhalts, hscans⟩ := Lexer.exists_scans source
  have hlast : last.map (fun t => l.words 0 ++ [t]) = .error e := hscans.collected.symm.trans h
  cases hhalts with
  | ended => cases hlast
  | @stuck c rest hc hread =>
    cases hlast
    exact .lexical htext hc hread

/-- The last token of a text, and no other one, stands for its end. -/
theorem Spelled.endsOnce {offset : Nat} {text : List Char} {tokens : List Token}
    (h : Spelled offset text tokens) : EndsOnce tokens := by
  induction h with
  | finish hb => rfl
  | @token offset start stop blanks text k tokens hb hstart hk hstop he h ih =>
    have hne : k ≠ .endOfInput := by
      rintro rfl
      exact hk
    unfold EndsOnce at ih ⊢
    simp [beforeEnd, hne] at ih ⊢
    exact ih

theorem endsOnce_of_tokenize {source : String} {tokens : List Token}
    (h : tokenize source = .ok tokens) : EndsOnce tokens :=
  (Lexer.tokens_eq_ok_iff.mp h).endsOnce

/-- Tokens are refused for one of them, as long as there is one for the end. -/
theorem parseTokens_error_mem {tokens : List Token} {err : SyntaxError} (hend : EndsOnce tokens)
    (h : parseTokens tokens = .error err) :
    ∃ t ∈ tokens, err = ⟨err.expected, t.kind.describe, t.span.start⟩ := by
  obtain ⟨b, hread, rfl⟩ := parseTokens_eq_error_iff.mp h
  have hstuck := readWhole_stuckAt hread
  obtain ⟨t, others, hrest⟩ := List.exists_cons_of_ne_nil (rest_ne_nil_of_stuckAt hend hstuck)
  obtain ⟨used, rfl, -, -⟩ := hstuck
  refine ⟨t, List.mem_append_right used ?_, ?_⟩
  · rw [hrest]
    exact List.mem_cons_self
  · rw [Blame.toSyntaxError, hrest]
    rfl

/-! ## Whole texts -/

theorem Expr.rejected {source : String} {error : SelectorError}
    (h : Expr.parse source = .error error) : Rejected source error := by
  rcases Except.bind_eq_error.mp h with hlexer | ⟨tokens, hlexer, hparser⟩
  · obtain ⟨e, he, rfl⟩ := Except.mapError_eq_error.mp hlexer
    exact tokenize_rejected he
  · have htokens := Except.mapError_eq_ok.mp hlexer
    obtain ⟨err, herr, rfl⟩ := Except.mapError_eq_error.mp hparser
    obtain ⟨t, ht, heq⟩ := parseTokens_error_mem (endsOnce_of_tokenize htokens) herr
    rw [heq]
    exact .syntactic err.expected htokens ht

namespace Selector

theorem parse_eq_error {source : String} {error : SelectorError} :
    parse source = .error error ↔
      source.toList.all isBlank = false ∧ Expr.parse source = .error error := by
  rw [parse_eq]
  cases source.toList.all isBlank with
  | true => simp
  | false => cases Expr.parse source <;> simp [Except.map]

theorem rejected {source : String} {error : SelectorError} (h : parse source = .error error) :
    Rejected source error := Expr.rejected (parse_eq_error.mp h).2

theorem parse_of_tokenize_error {source : String} {e : LexError}
    (h : tokenize source = .error e) : parse source = .error (.lexical e) := by
  apply parse_eq_error.mpr
  constructor
  · cases hblank : source.toList.all isBlank with
    | false => rfl
    | true =>
      rw [tokenize, Lexer.ofText,
        Lexer.tokens_of_next_ok (Lexer.next_blanks (List.all_eq_true.mp hblank)),
        Lexer.tokens_exhausted] at h
      cases h
  · rw [Expr.parse, h]
    rfl

end Selector

theorem tokenize_blanks_error {blanks rest : List Char} {c : Char}
    (hb : ∀ a ∈ blanks, isBlank a = true) (hc : isBlank c = false)
    (h : Lexeme.read? (c :: rest) = none) :
    tokenize (String.ofList (blanks ++ c :: rest)) =
      .error (.at (Text.byteLength blanks) c rest) := by
  rw [tokenize, Lexer.ofText, String.toList_ofList,
    Lexer.tokens_of_next_error (Lexer.next_error hb hc h), Nat.zero_add]

end MicroFrontends
