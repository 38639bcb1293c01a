import MicroFrontends.Error
import MicroFrontends.Proofs.Selector.Rejections
import MicroFrontends.Proofs.Selector.Spans

/-!
# The mark below a rejected selector

A rejected text is shown with a mark below the character where it goes wrong.

* `Text.PartBefore before offset text` : the offset is at the boundary of a character of the text,
  and `before` is what stands in front of it;
* `Text.column_of_partBefore` : then the column counts the characters in front of it;
* `Rejected.exists_partBefore` : all that a text is rejected for is at such a boundary;
* `parse_questionAfter` : a rejected text with any number of characters in front of the place;
* `tips_of_rejected` : the mark is below the right character, if it is shown at all: one that is far
  to the right is not.
-/

namespace MicroFrontends

namespace Text

/-- The byte offset is at a boundary between characters of the text, right after `before`. -/
def PartBefore (before : List Char) (offset : Nat) (text : List Char) : Prop :=
  before <+: text ∧ offset = byteLength before

variable {before text : List Char} {offset : Nat}

theorem charsBefore?_append (before after : List Char) :
    charsBefore? (byteLength before) (before ++ after) = some before.length := by
  induction before with
  | nil => cases after <;> rfl
  | cons c before ih =>
    have hpos := c.utf8Size_pos
    -- the offset is not the first one, and not within the first character
    obtain ⟨n, hn⟩ : ∃ n, c.utf8Size + byteLength before = n + 1 :=
      ⟨c.utf8Size + byteLength before - 1, by omega⟩
    have hle : ¬ n + 1 < c.utf8Size := by omega
    have hsub : n + 1 - c.utf8Size = byteLength before := by omega
    rw [byteLength_cons, hn, List.cons_append, charsBefore?, if_neg hle, hsub, ih]
    · rfl
    · intro h
      omega

theorem PartBefore.charsBefore? (h : PartBefore before offset text) :
    charsBefore? offset text = some before.length := by
  obtain ⟨⟨after, rfl⟩, rfl⟩ := h
  exact charsBefore?_append before after

theorem PartBefore.le_byteLength (h : PartBefore before offset text) :
    offset ≤ byteLength text := by
  obtain ⟨⟨after, rfl⟩, rfl⟩ := h
  rw [byteLength_append]
  omega

theorem column_of_partBefore {line : String} (h : PartBefore before offset line.toList) :
    column line offset = before.length := by
  rw [column, h.charsBefore?]
  rfl

theorem Between.partBefore {start stop : Nat} {part after : List Char}
    (h : Between start stop text part after) : ∃ before, PartBefore before start text := by
  obtain ⟨before, rfl, rfl, -⟩ := h
  exact ⟨before, ⟨part ++ after, rfl⟩, rfl⟩

/-- A line in which the character of a column is marked from below, as two lines. -/
def marked (line : String) (column : Nat) : String :=
  "    " ++ line ++ "\n" ++
    ("    " ++ String.ofList (List.replicate column ' ') ++ caretMark ++ "\n")

theorem caret_of_partBefore {line : String} (h : PartBefore before offset line.toList) :
    caret line offset =
      if before.length ≤ maxPadding then marked line before.length else "    " ++ line ++ "\n" := by
  rw [caret, canMark, column_of_partBefore h]
  by_cases hle : before.length ≤ maxPadding
  · rw [if_pos (decide_eq_true hle), if_pos hle, marked]
  · rw [if_neg (mt of_decide_eq_true hle), if_neg hle, String.append_empty]

end Text

/-! ## The places of errors -/

/-- The tokens of a text are at boundaries of its characters, and so is the end that they end with.
-/
theorem tokenize_partBefore {source : String} {tokens : List Token} {t : Token}
    (h : tokenize source = .ok tokens) (ht : t ∈ tokens) :
    ∃ before, Text.PartBefore before t.span.start source.toList := by
  have hspelled : Spelled 0 source.toList tokens := Lexer.tokens_eq_ok_iff.mp h
  obtain ⟨words, rfl, hwords, -⟩ := hspelled.cover [] rfl 0
  rcases List.mem_append.mp ht with ht | ht
  · obtain ⟨after, hbetween, -⟩ := (hwords t ht).spelled
    exact hbetween.partBefore
  · obtain rfl := List.mem_singleton.mp ht
    exact ⟨source.toList, List.prefix_rfl, rfl⟩

theorem Rejected.exists_partBefore {source : String} {error : SelectorError}
    (h : Rejected source error) :
    ∃ before, Text.PartBefore before error.offset source.toList := by
  cases h with
  | @lexical before rest c htext hc hread =>
    refine ⟨before, ?_, (LexError.fits_iff.mpr ⟨hc, hread, rfl⟩).1⟩
    rw [htext]
    exact List.prefix_append before (c :: rest)
  | syntactic x htokens ht => exact tokenize_partBefore htokens ht

/-! ## A text that goes wrong anywhere -/

theorem Text.byteLength_replicate_blank (n : Nat) : byteLength (List.replicate n ' ') = n := by
  induction n with
  | zero => rfl
  | succ n ih =>
    have hsize : ' '.utf8Size = 1 := rfl
    rw [List.replicate_succ, byteLength_cons, ih, hsize]
    omega

/-- A text of blanks and a question mark, with which no token begins. -/
def questionAfter (blanks : Nat) : String := String.ofList (List.replicate blanks ' ' ++ ['?'])

theorem parse_questionAfter (n : Nat) :
    Selector.parse (questionAfter n) = .error (.lexical (.unexpectedChar '?' n)) := by
  have hb : ∀ a ∈ List.replicate n ' ', isBlank a = true := by
    intro a ha
    rw [List.eq_of_mem_replicate ha]
    rfl
  apply Selector.parse_of_tokenize_error
  rw [questionAfter, tokenize_blanks_error hb rfl rfl, Text.byteLength_replicate_blank]
  rfl

theorem newline_notMem_questionAfter (n : Nat) : '\n' ∉ (questionAfter n).toList := by
  intro h
  rw [questionAfter, String.toList_ofList] at h
  rcases List.mem_append.mp h with h | h
  · exact absurd (List.eq_of_mem_replicate h) (by decide)
  · exact absurd (List.mem_singleton.mp h) (by decide)

/-! ## What is shown -/

/-- The offset at which a text is rejected is at the boundary of a character, within the text. A
text of one line is shown with a mark in the column of that character, as two lines. There is no
mark in a column beyond `Text.maxPadding`: instead of it showing the text breaks off. -/
theorem tips_of_rejected {text : String} {error : SelectorError}
    (h : Selector.parse text = .error error) :
    ∃ before, Text.PartBefore before error.offset text.toList ∧
      error.offset ≤ text.utf8ByteSize ∧
      Text.charsBefore? error.offset text.toList = some before.length ∧
      ('\n' ∉ text.toList →
        ((ProgramError.selector text error).breaksOff = true ↔ Text.maxPadding < before.length) ∧
        (ProgramError.selector text error).tips =
          if before.length ≤ Text.maxPadding then Text.marked text before.length
          else "    " ++ text ++ "\n") := by
  obtain ⟨before, hbefore⟩ := (Selector.rejected h).exists_partBefore
  refine ⟨before, hbefore, ?_, hbefore.charsBefore?, ?_⟩
  · rw [← Text.byteLength_toList]
    exact hbefore.le_byteLength
  · intro hline
    have hcontains : text.toList.contains '\n' = false := by simpa using hline
    constructor
    · simp only [ProgramError.breaksOff, hcontains, Text.canMark, Text.column_of_partBefore hbefore,
        Bool.not_false, Bool.true_and, Bool.not_eq_true', decide_eq_false_iff_not, Nat.not_le]
    · rw [ProgramError.tips, hcontains, Text.caret_of_partBefore hbefore]
      rfl

/-- The mark is below the last character: the one before it counts once, although it has two bytes.
-/
theorem tips_of_rejected_accented :
    Selector.parse "a=\"é\" =" = .error (.syntactic ⟨.endOfInput, "'='", 7⟩) ∧
      ∃ before, Text.PartBefore before 7 "a=\"é\" =".toList ∧ before.length = 6 ∧
        (ProgramError.selector "a=\"é\" =" (.syntactic ⟨.endOfInput, "'='", 7⟩)).tips =
          Text.marked "a=\"é\" =" 6 := by
  let gap : Blanks := ⟨[], List.forall_mem_nil _⟩
  let blank : Blanks := ⟨[' '], List.forall_mem_singleton.mpr rfl⟩
  let l : Layout := .word gap ⟨.label "a", rfl⟩ (.word gap ⟨.equals, trivial⟩
    (.word gap ⟨.string "é", by simp [TokenKind.Spellable]⟩ (.word blank ⟨.equals, trivial⟩
      (.finish gap))))
  have hl : l.Separated := by simp [l, Layout.Separated, Layout.SeparatedFrom, TokenKind.mergesWith]
  have htext : String.ofList l.text = "a=\"é\" =" := rfl
  have htokens : l.tokens 0 = [⟨.label "a", 0, 1⟩, ⟨.equals, 1, 2⟩, ⟨.string "é", 2, 6⟩,
      ⟨.equals, 7, 8⟩, .endAt 8] := by decide
  have hread (room : Nat) :
      parseOr room (l.tokens 0) = .ok (.equals "a" "é", [⟨.equals, 7, 8⟩, .endAt 8]) := by
    rw [htokens]
    simp [parseOr, parseAnd, parseUnary, parsePrimary, parseComparison, parseValue, parseAndChain,
      parseOrChain]
  have herror : parseTokens (l.tokens 0) = .error ⟨.endOfInput, "'='", 7⟩ := by
    rw [parseTokens, hread]
    rfl
  have hparse : Selector.parse "a=\"é\" =" = .error (.syntactic ⟨.endOfInput, "'='", 7⟩) := by
    rw [← htext, l.parse_text hl, herror]
    rfl
  have hlist : "a=\"é\" =".toList = ['a', '=', '"', 'é', '"', ' ', '='] := rfl
  obtain ⟨before, hbefore, -, hcount, htips⟩ := tips_of_rejected hparse
  have hsix : before.length = 6 := by
    rw [hlist] at hcount
    exact (Option.some.inj hcount).symm
  refine ⟨hparse, before, hbefore, hsix, ?_⟩
  have hline : '\n' ∉ "a=\"é\" =".toList := by
    rw [hlist]
    decide
  rw [(htips hline).2, hsix]
  rfl

/-- With one blank more than there may be in front of the mark it is not shown, in any column. -/
theorem tips_ne_marked :
    Selector.parse (questionAfter 65536) = .error (.lexical (.unexpectedChar '?' 65536)) ∧
      '\n' ∉ (questionAfter 65536).toList ∧
      ∀ column, (ProgramError.selector (questionAfter 65536)
        (.lexical (.unexpectedChar '?' 65536))).tips ≠ Text.marked (questionAfter 65536) column := by
  have hparse := parse_questionAfter 65536
  have hline := newline_notMem_questionAfter 65536
  refine ⟨hparse, hline, ?_⟩
  intro column heq
  have hcontains : (questionAfter 65536).toList.contains '\n' = false := by simpa using hline
  have hbefore : Text.PartBefore (List.replicate 65536 ' ') 65536 (questionAfter 65536).toList := by
    rw [questionAfter, String.toList_ofList]
    exact ⟨List.prefix_append _ _, (Text.byteLength_replicate_blank 65536).symm⟩
  have hfar : ¬ (List.replicate 65536 ' ').length ≤ Text.maxPadding := by
    rw [List.length_replicate]
    decide
  rw [ProgramError.tips, hcontains, SelectorError.offset, LexError.offset,
    Text.caret_of_partBefore hbefore, if_neg hfar, Text.marked] at heq
  have hlength := congrArg String.length heq
  simp [String.length_append] at hlength

end MicroFrontends
