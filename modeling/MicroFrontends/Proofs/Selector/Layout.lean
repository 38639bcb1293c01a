import MicroFrontends.Proofs.Selector.Reading
import MicroFrontends.Proofs.Selector.Spelling
import MicroFrontends.Selector.Basic

/-!
# Texts laid out from tokens

* `Layout` : tokens with the blanks before, between and after them; `Layout.text` is what they make,
  `Layout.words` the tokens at the places where they were put;
* `TokenKind.mergesWith` : the two pairs of tokens that need a blank between them;
* `Layout.Separated` : there is one wherever it is needed;
* `Layout.spelled`, `Layout.separated_of_spelled` : exactly then the text spells the tokens;
* `tokenize_layout` : so the lexer finds the tokens again, and other blanks make no difference to
  what the text means.
-/

namespace MicroFrontends

/-- A run of blanks, which may be empty. -/
abbrev Blanks := { cs : List Char // ∀ c ∈ cs, isBlank c = true }

/-- A token that has a text. -/
abbrev Word := { k : TokenKind // k.Spellable }

/-- Tokens one after another, with blanks before each and after the last one. -/
inductive Layout where
  | finish (blanks : Blanks)
  | word (blanks : Blanks) (w : Word) (others : Layout)

namespace TokenKind

/-- The character after the token goes on with it. -/
def continuesWith : TokenKind → Char → Bool
  | label _, c => isWordChar c
  | not, c => c == '='
  | _, _ => false

/-- Side by side the tokens are read as something else: two labels as one, and `!` and `=` as `!=`.
-/
def mergesWith : TokenKind → TokenKind → Bool
  | label _, label _ => true
  | not, equals => true
  | _, _ => false

theorem endsBefore_iff {k : TokenKind} {rest : List Char} :
    k.EndsBefore rest ↔ ∀ c ∈ rest.head?, k.continuesWith c = false := by
  cases k <;> simp [EndsBefore, continuesWith]

theorem continuesWith_of_isBlank (k : TokenKind) {c : Char} (h : isBlank c = true) :
    k.continuesWith c = false := by
  simp only [isBlank, Bool.or_eq_true, decide_eq_true_eq] at h
  rcases h with (((rfl | rfl) | rfl) | rfl) | rfl <;> cases k <;> rfl

/-- A token goes on with the spelling of the next one exactly if they merge. -/
theorem continuesWith_of_spelling (k : TokenKind) {k' : TokenKind} (hk' : k'.Spellable) {c : Char}
    {cs : List Char} (h : k'.spelling = c :: cs) : k.continuesWith c = k.mergesWith k' := by
  cases k' with
  | label text =>
    have hword : isWordStart c = true := by
      have ht : text.toList = c :: cs := h
      rw [Spellable, ht, isWord, Bool.and_eq_true] at hk'
      exact hk'.1
    have hne : c ≠ '=' := by
      rintro rfl
      exact absurd hword (by decide)
    cases k <;> simp_all [continuesWith, mergesWith, isWordChar, isWordStart]
  | endOfInput => exact hk'.elim
  | _ =>
    obtain ⟨rfl, -⟩ := List.cons.inj h
    cases k <;> rfl

end TokenKind

namespace Layout

/-- The text of the layout. -/
def text : Layout → List Char
  | finish blanks => blanks.val
  | word blanks w others => blanks.val ++ (w.val.spelling ++ others.text)

def kinds : Layout → List TokenKind
  | finish _ => []
  | word _ w others => w.val :: others.kinds

/-- The tokens at their places in the text, which begins at the offset. -/
def words : Layout → (offset : Nat) → List Token
  | finish _, _ => []
  | word blanks w others, offset =>
    let start := offset + Text.byteLength blanks.val
    let stop := start + Text.byteLength w.val.spelling
    ⟨w.val, start, stop⟩ :: others.words stop

/-- The tokens and the end of the text. -/
def tokens (l : Layout) (offset : Nat) : List Token :=
  l.words offset ++ [.endAt (offset + Text.byteLength l.text)]

/-- If the token merges with the first one of the layout, there are blanks between them. -/
def SeparatedFrom (k : TokenKind) : Layout → Prop
  | finish _ => True
  | word blanks w _ => k.mergesWith w.val = true → blanks.val ≠ []

/-- There are blanks between any two neighbours that merge. -/
def Separated : Layout → Prop
  | finish _ => True
  | word _ w others => others.SeparatedFrom w.val ∧ others.Separated

theorem endsBefore_text_iff {k : TokenKind} {l : Layout} :
    k.EndsBefore l.text ↔ l.SeparatedFrom k := by
  rw [TokenKind.endsBefore_iff]
  have hblank {c : Char} {rest : List Char} (hc : isBlank c = true) :
      ∀ a ∈ (c :: rest).head?, k.continuesWith a = false := by
    intro a ha
    obtain rfl := Option.some.inj ha
    exact k.continuesWith_of_isBlank hc
  match l with
  | finish ⟨[], _⟩ => simp [text, SeparatedFrom]
  | finish ⟨c :: cs, hb⟩ => exact iff_of_true (hblank (hb c List.mem_cons_self)) trivial
  | word ⟨[], _⟩ w others =>
    obtain ⟨c, cs, hc, -⟩ := w.property.exists_cons
    simp [text, SeparatedFrom, hc, k.continuesWith_of_spelling w.property hc]
  | word ⟨c :: cs, hb⟩ w others =>
    exact iff_of_true (hblank (hb c List.mem_cons_self)) fun _ => List.cons_ne_nil c cs

theorem tokens_word (blanks : Blanks) (w : Word) (others : Layout) (offset : Nat) :
    (word blanks w others).tokens offset =
      ⟨w.val, offset + Text.byteLength blanks.val,
        offset + Text.byteLength blanks.val + Text.byteLength w.val.spelling⟩ ::
      others.tokens (offset + Text.byteLength blanks.val + Text.byteLength w.val.spelling) := by
  simp only [tokens, words, text, Text.byteLength_append, Nat.add_assoc, List.cons_append]

/-- A layout with the blanks that are needed spells its tokens. -/
theorem spelled (l : Layout) (h : l.Separated) (offset : Nat) :
    Spelled offset l.text (l.tokens offset) := by
  induction l generalizing offset with
  | finish blanks => exact .finish blanks.property
  | word blanks w others ih =>
    rw [tokens_word]
    exact .token blanks.property rfl w.property rfl (endsBefore_text_iff.mpr h.1) (ih h.2 _)

end Layout

/-- What a text that begins with a token spells is the token and what the rest of the text spells.
-/
theorem Spelled.of_word {offset start stop : Nat} {blanks text : List Char} {k : TokenKind}
    {tokens : List Token} (hb : ∀ c ∈ blanks, isBlank c = true) (hk : k.Spellable)
    (h : Spelled offset (blanks ++ (k.spelling ++ text)) (⟨k, start, stop⟩ :: tokens)) :
    k.EndsBefore text ∧ Spelled stop text tokens := by
  generalize hfull : blanks ++ (k.spelling ++ text) = full at h
  cases h with
  | finish hb' => exact hk.elim
  | @token _ _ _ blanks' text' _ _ hb' hstart hk' hstop he h =>
    have hdrop := congrArg (List.dropWhile isBlank) hfull
    rw [dropWhile_run hb (hk.isBlank_head? _), dropWhile_run hb' (hk'.isBlank_head? _)] at hdrop
    obtain rfl := List.append_cancel_left hdrop
    exact ⟨he, h⟩

namespace Layout

/-- Where blanks are needed and missing the text does not spell the tokens. -/
theorem separated_of_spelled {l : Layout} {offset : Nat}
    (h : Spelled offset l.text (l.tokens offset)) : l.Separated := by
  induction l generalizing offset with
  | finish blanks => trivial
  | word blanks w others ih =>
    rw [tokens_word] at h
    obtain ⟨he, hothers⟩ := h.of_word blanks.property w.property
    exact ⟨endsBefore_text_iff.mp he, ih hothers⟩

theorem kindsOf_tokens (l : Layout) (offset : Nat) :
    kindsOf (l.tokens offset) = l.kinds ++ [.endOfInput] := by
  have hwords : kindsOf (l.words offset) = l.kinds := by
    induction l generalizing offset with
    | finish blanks => rfl
    | word blanks w others ih => exact congrArg (w.val :: ·) (ih _)
  rw [tokens, kindsOf_append, hwords]
  rfl

end Layout

/-- Token lists of the same kinds before the end are the same expression. -/
theorem parseTokens_of_beforeEnd {tokens tokens' : List Token} {e : Expr}
    (h : parseTokens tokens = .ok e) (hk : beforeEnd tokens = beforeEnd tokens') :
    parseTokens tokens' = .ok e := by
  obtain ⟨d, hd, hn, rfl⟩ := derivation_of_parseTokens h
  exact d.parseTokens_eq_ok (hd.trans hk) hn

namespace Layout

theorem tokenize_text_iff (l : Layout) :
    tokenize (String.ofList l.text) = .ok (l.tokens 0) ↔ l.Separated := by
  rw [tokenize, Lexer.ofText, String.toList_ofList, Lexer.tokens_eq_ok_iff]
  exact ⟨separated_of_spelled, fun h => l.spelled h 0⟩

theorem all_isBlank_text (l : Layout) : l.text.all isBlank = l.kinds.isEmpty := by
  cases l with
  | finish blanks => exact List.all_eq_true.mpr blanks.property
  | word blanks w others =>
    obtain ⟨c, cs, hc, hcb⟩ := w.property.exists_cons
    simp [text, kinds, hc, hcb]

theorem parse_text (l : Layout) (h : l.Separated) :
    Selector.parse (String.ofList l.text) = if l.kinds.isEmpty then .ok .all
      else ((parseTokens (l.tokens 0)).mapError .syntactic).map (⟨some ·⟩) := by
  rw [Selector.parse_eq, String.toList_ofList, l.all_isBlank_text, Expr.parse,
    l.tokenize_text_iff.mpr h]
  rfl

theorem parse_text_eq_ok {l l' : Layout} {s : Selector} (h : l.Separated) (h' : l'.Separated)
    (hk : l.kinds = l'.kinds) (hs : Selector.parse (String.ofList l.text) = .ok s) :
    Selector.parse (String.ofList l'.text) = .ok s := by
  rw [l.parse_text h] at hs
  rw [l'.parse_text h', ← hk]
  split at hs
  · next he => rwa [if_pos he]
  · next he =>
    obtain ⟨e, hp, rfl⟩ := Except.map_eq_ok.mp hs
    have hbefore : beforeEnd (l.tokens 0) = beforeEnd (l'.tokens 0) := by
      rw [beforeEnd, beforeEnd, kindsOf_tokens, kindsOf_tokens, hk]
    have hp' := parseTokens_of_beforeEnd (Except.mapError_eq_ok.mp hp) hbefore
    rw [if_neg he, hp']
    rfl

end Layout

/-- The lexer finds the tokens of a layout, at their places, exactly if blanks stand between any two
labels side by side and between `!` and `=`. Texts with the same tokens are then the same selector,
whatever their blanks are. -/
theorem tokenize_layout (l : Layout) :
    (tokenize (String.ofList l.text) = .ok (l.tokens 0) ↔ l.Separated) ∧
      kindsOf (l.tokens 0) = l.kinds ++ [.endOfInput] ∧
      ∀ l' : Layout, l.Separated → l'.Separated → l.kinds = l'.kinds → ∀ s,
        Selector.parse (String.ofList l.text) = .ok s ↔
          Selector.parse (String.ofList l'.text) = .ok s :=
  ⟨l.tokenize_text_iff, l.kindsOf_tokens 0, fun _ h h' hk _ =>
    ⟨Layout.parse_text_eq_ok h h' hk, Layout.parse_text_eq_ok h' h hk.symm⟩⟩

/-- No blanks are needed here: the tokens are the longest that can be read one after another. -/
theorem tokenize_layout_tight :
    let gap : Blanks := ⟨[], List.forall_mem_nil _⟩
    let l : Layout := .word gap ⟨.not, trivial⟩ (.word gap ⟨.notEquals, trivial⟩
      (.word gap ⟨.string "&&", by simp [TokenKind.Spellable]⟩
        (.word gap ⟨.string "", by simp [TokenKind.Spellable]⟩
          (.word gap ⟨.equals, trivial⟩ (.word gap ⟨.equals, trivial⟩ (.finish gap))))))
    l.Separated ∧ tokenize "!!=\"&&\"\"\"==" = .ok [⟨.not, 0, 1⟩, ⟨.notEquals, 1, 3⟩,
      ⟨.string "&&", 3, 7⟩, ⟨.string "", 7, 9⟩, ⟨.equals, 9, 10⟩, ⟨.equals, 10, 11⟩, .endAt 11] := by
  intro gap l
  have hl : l.Separated := by simp [l, Layout.Separated, Layout.SeparatedFrom, TokenKind.mergesWith]
  have htext : String.ofList l.text = "!!=\"&&\"\"\"==" := rfl
  have htokens : l.tokens 0 = [⟨.not, 0, 1⟩, ⟨.notEquals, 1, 3⟩, ⟨.string "&&", 3, 7⟩,
      ⟨.string "", 7, 9⟩, ⟨.equals, 9, 10⟩, ⟨.equals, 10, 11⟩, .endAt 11] := by decide
  refine ⟨hl, ?_⟩
  rw [← htext, ← htokens]
  exact (tokenize_layout l).1.mpr hl

end MicroFrontends
