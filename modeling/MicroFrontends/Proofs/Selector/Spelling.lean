import Mathlib.Data.List.TakeWhile
import MicroFrontends.Proofs.Outcome
import MicroFrontends.Proofs.Runs
import MicroFrontends.Selector.Lexer

/-!
# How tokens are spelled

* `TokenKind.spelling` : the text of a token, for the kinds that are `TokenKind.Spellable`;
* `TokenKind.EndsBefore` : the text after a token does not go on with it;
* `Opening` : what a text begins with, for every text (`opening`);
* `Spelled offset text tokens` : the text consists of the spellings of the tokens with blanks around
  them, and the tokens are placed where their spellings are;
* `Lexer.tokens_eq_ok_iff` : the lexer gives the tokens that the text spells.
-/

namespace MicroFrontends

namespace TokenKind

/-- The text of a token. The end of the text is no text. -/
def spelling : TokenKind → List Char
  | label text => text.toList
  | string text => '"' :: text.toList ++ ['"']
  | not => ['!']
  | and => ['&', '&']
  | or => ['|', '|']
  | equals => ['=']
  | notEquals => ['!', '=']
  | lparen => ['(']
  | rparen => [')']
  | endOfInput => []

/-- The kinds that have a text: labels are words, and no quote stands between quotes. -/
def Spellable : TokenKind → Prop
  | label text => isWord text.toList = true
  | string text => '"' ∉ text.toList
  | endOfInput => False
  | _ => True

/-- The text after a token does not make it a longer one. -/
def EndsBefore : TokenKind → List Char → Prop
  | label _, rest => ∀ c ∈ rest.head?, isWordChar c = false
  | not, rest => ∀ c ∈ rest.head?, c ≠ '='
  | _, _ => True

theorem Spellable.exists_cons {k : TokenKind} (h : k.Spellable) :
    ∃ c cs, k.spelling = c :: cs ∧ isBlank c = false := by
  cases k with
  | label text =>
    cases ht : text.toList with
    | nil => simp [Spellable, ht, isWord] at h
    | cons c cs =>
      refine ⟨c, cs, ht, ?_⟩
      simp only [Spellable, ht, isWord, Bool.and_eq_true, isWordStart] at h
      cases hb : isBlank c with
      | false => rfl
      | true =>
        simp only [isBlank, Bool.or_eq_true, decide_eq_true_eq] at hb
        rcases hb with (((rfl | rfl) | rfl) | rfl) | rfl <;> exact absurd h.1 (by decide)
  | endOfInput => exact h.elim
  | _ => exact ⟨_, _, rfl, rfl⟩

theorem Spellable.isBlank_head? {k : TokenKind} (h : k.Spellable) (text : List Char) :
    ∀ c ∈ (k.spelling ++ text).head?, isBlank c = false := by
  obtain ⟨c, cs, hc, hcb⟩ := h.exists_cons
  rw [hc]
  intro a ha
  obtain rfl := Option.some.inj ha
  exact hcb

theorem Spellable.length_lt {k : TokenKind} (h : k.Spellable) (blanks rest : List Char) :
    rest.length < (blanks ++ (k.spelling ++ rest)).length := by
  obtain ⟨c, cs, hc, -⟩ := h.exists_cons
  simp only [hc, List.length_append, List.length_cons]
  omega

end TokenKind

/-! ## One token -/

namespace Lexeme

theorem read?_of_isWordStart {c : Char} (hc : isWordStart c = true) (r : List Char) :
    read? (c :: r) = some ⟨.label (String.ofList (c :: r.takeWhile isWordChar)),
      c :: r.takeWhile isWordChar, r.dropWhile isWordChar⟩ := by
  have hne : ∀ o, isWordStart o = false → c ≠ o := by
    rintro o ho rfl
    simp [hc] at ho
  rw [read?.eq_9]
  · rw [if_pos hc]
  · exact fun _ h => absurd h (hne '&' rfl)
  · exact fun _ h => absurd h (hne '|' rfl)
  · exact fun _ h => absurd h (hne '!' rfl)
  · exact hne '!' rfl
  · exact hne '=' rfl
  · exact hne '(' rfl
  · exact hne ')' rfl
  · exact hne '"' rfl

/-- The token at the start of a text that begins with its spelling. -/
theorem read?_spelling {k : TokenKind} {rest : List Char} (hk : k.Spellable)
    (hr : k.EndsBefore rest) : read? (k.spelling ++ rest) = some ⟨k, k.spelling, rest⟩ := by
  cases k with
  | label text =>
    cases ht : text.toList with
    | nil => simp [TokenKind.Spellable, ht, isWord] at hk
    | cons c cs =>
      simp only [TokenKind.Spellable, ht, isWord, Bool.and_eq_true, List.all_eq_true] at hk
      have htext : String.ofList (c :: cs) = text := by rw [← ht, String.ofList_toList]
      simp only [TokenKind.spelling, ht, List.cons_append]
      rw [read?_of_isWordStart hk.1, takeWhile_run hk.2 hr, dropWhile_run hk.2 hr, htext]
  | string text =>
    have hquote : ∀ c ∈ text.toList, (c != '"') = true := by
      intro c hc
      simp only [bne_iff_ne, ne_eq]
      rintro rfl
      exact hk hc
    have hstop : ∀ c ∈ ('"' :: rest).head?, (c != '"') = false := by simp
    simp only [TokenKind.spelling, List.cons_append, List.append_assoc, List.nil_append]
    rw [read?.eq_8, takeWhile_run hquote hstop, dropWhile_run hquote hstop]
    simp
  | not =>
    -- the one token that begins a longer one, `!=`
    refine read?.eq_4 rest fun r hr' => ?_
    subst hr'
    exact absurd rfl (hr '=' rfl)
  | endOfInput => exact hk.elim
  | _ => rfl

/-- A token that is read has a spelling, and what is left does not go on with it. -/
theorem spellable_of_read? {cs : List Char} {l : Lexeme} (h : read? cs = some l) :
    l.kind.Spellable ∧ l.spelling = l.kind.spelling ∧ l.kind.EndsBefore l.rest := by
  unfold read? at h
  split at h
  case h_4 r hr =>
    cases h
    refine ⟨trivial, rfl, ?_⟩
    intro c hc he
    subst he
    obtain ⟨r', rfl⟩ : ∃ r', r = '=' :: r' := by
      cases r with
      | nil => simp at hc
      | cons a r' => exact ⟨r', by simpa using hc⟩
    exact hr r' rfl
  case h_8 r =>
    dsimp only at h
    split at h
    · next q rest hq =>
      have hquote : q = '"' := by
        have := eq_false_of_mem_head?_dropWhile q (by rw [hq]; rfl)
        simpa using this
      cases h
      refine ⟨?_, ?_, trivial⟩
      · intro hmem
        rw [String.toList_ofList] at hmem
        exact absurd (List.mem_takeWhile_imp hmem) (by decide)
      · simp [TokenKind.spelling, hquote]
    · cases h
  case h_9 c r _ _ _ _ _ _ _ _ =>
    dsimp only at h
    split at h
    · next hc =>
      cases h
      refine ⟨?_, ?_, eq_false_of_mem_head?_dropWhile⟩
      · simp [TokenKind.Spellable, isWord, hc]
      · exact String.toList_ofList.symm
    · cases h
  all_goals cases h <;> exact ⟨trivial, rfl, trivial⟩

end Lexeme

/-! ## What a text begins with -/

/-- What stands first in a text, after blanks: its end, a token, or a character that begins none. -/
inductive Opening : List Char → Prop where
  | ended {blanks : List Char} (hb : ∀ c ∈ blanks, isBlank c = true) : Opening blanks
  | token {blanks rest : List Char} {k : TokenKind} (hb : ∀ c ∈ blanks, isBlank c = true)
      (hk : k.Spellable) (he : k.EndsBefore rest) : Opening (blanks ++ (k.spelling ++ rest))
  | stuck {blanks rest : List Char} {c : Char} (hb : ∀ a ∈ blanks, isBlank a = true)
      (hc : isBlank c = false) (h : Lexeme.read? (c :: rest) = none) :
      Opening (blanks ++ c :: rest)

theorem opening (text : List Char) : Opening text := by
  have hsplit := List.takeWhile_append_dropWhile (p := isBlank) (l := text)
  have hb : ∀ c ∈ text.takeWhile isBlank, isBlank c = true := fun _ => List.mem_takeWhile_imp
  cases hd : text.dropWhile isBlank with
  | nil =>
    rw [hd, List.append_nil] at hsplit
    exact .ended (hsplit ▸ hb)
  | cons c r =>
    rw [hd] at hsplit
    cases hread : Lexeme.read? (c :: r) with
    | none =>
      have hc : isBlank c = false := eq_false_of_mem_head?_dropWhile c (by rw [hd]; rfl)
      exact hsplit ▸ .stuck hb hc hread
    | some l =>
      obtain ⟨hk, hs, he⟩ := Lexeme.spellable_of_read? hread
      rw [← hsplit, ← Lexeme.spelling_append_rest hread, hs]
      exact .token hb hk he

/-! ## All tokens -/

/-- The text from an offset on spells the tokens, of which the last one stands for its end. -/
inductive Spelled : Nat → List Char → List Token → Prop where
  | finish {offset : Nat} {blanks : List Char} (hb : ∀ c ∈ blanks, isBlank c = true) :
      Spelled offset blanks [.endAt (offset + Text.byteLength blanks)]
  | token {offset start stop : Nat} {blanks text : List Char} {k : TokenKind} {tokens : List Token}
      (hb : ∀ c ∈ blanks, isBlank c = true) (hstart : start = offset + Text.byteLength blanks)
      (hk : k.Spellable) (hstop : stop = start + Text.byteLength k.spelling)
      (he : k.EndsBefore text) (h : Spelled stop text tokens) :
      Spelled offset (blanks ++ (k.spelling ++ text)) (⟨k, start, stop⟩ :: tokens)

/-- Every token but the last one is spellable. -/
theorem Spelled.spellable {offset : Nat} {text : List Char} {tokens : List Token}
    (h : Spelled offset text tokens) :
    ∀ t ∈ tokens, t.kind ≠ .endOfInput → t.kind.Spellable := by
  induction h with
  | finish hb =>
    intro t ht hne
    obtain rfl := List.mem_singleton.mp ht
    exact absurd rfl hne
  | token hb hstart hk hstop he h ih =>
    intro t ht hne
    rcases List.mem_cons.mp ht with rfl | ht
    · exact hk
    · exact ih t ht hne

namespace Lexer

theorem tokens_of_next_ok {lexer after : Lexer} {t : Token} (h : lexer.next = some (.ok t, after)) :
    lexer.tokens = after.tokens.map (t :: ·) := by
  rw [tokens]
  split <;> simp_all

theorem tokens_of_next_error {lexer after : Lexer} {e : LexError}
    (h : lexer.next = some (.error e, after)) : lexer.tokens = .error e := by
  rw [tokens]
  split <;> simp_all

theorem tokens_exhausted : exhausted.tokens = .ok [] := by
  rw [tokens]
  split <;> simp_all [next]

theorem next_blanks {offset : Nat} {text : List Char} (hb : ∀ c ∈ text, isBlank c = true) :
    (before offset text).next = some (.ok (.endAt (offset + Text.byteLength text)), exhausted) := by
  have hend : ∀ c ∈ ([] : List Char).head?, isBlank c = false := fun _ h => nomatch h
  have ht := takeWhile_run hb hend
  have hd := dropWhile_run hb hend
  rw [List.append_nil] at ht hd
  simp only [next, hd, ht]

theorem next_error {offset : Nat} {blanks rest : List Char} {c : Char}
    (hb : ∀ a ∈ blanks, isBlank a = true) (hc : isBlank c = false)
    (h : Lexeme.read? (c :: rest) = none) :
    (before offset (blanks ++ c :: rest)).next =
      some (.error (.at (offset + Text.byteLength blanks) c rest), exhausted) := by
  have hhead : ∀ a ∈ (c :: rest).head?, isBlank a = false := by
    intro a ha
    obtain rfl := Option.some.inj ha
    exact hc
  simp only [next, takeWhile_run hb hhead, dropWhile_run hb hhead, h]

theorem next_spelling {offset start stop : Nat} {blanks text : List Char} {k : TokenKind}
    (hb : ∀ c ∈ blanks, isBlank c = true) (hstart : start = offset + Text.byteLength blanks)
    (hk : k.Spellable) (hstop : stop = start + Text.byteLength k.spelling)
    (he : k.EndsBefore text) :
    (before offset (blanks ++ (k.spelling ++ text))).next =
      some (.ok ⟨k, start, stop⟩, before stop text) := by
  obtain ⟨c, cs, hc, -⟩ := hk.exists_cons
  have hhead := hk.isBlank_head? text
  have hread := Lexeme.read?_spelling hk he
  simp only [next, takeWhile_run hb hhead, dropWhile_run hb hhead]
  rw [hc, List.cons_append] at hread ⊢
  simp only [hread, ← hc, hstart, hstop]

end Lexer

theorem Spelled.tokens_eq_ok {offset : Nat} {text : List Char} {tokens : List Token}
    (h : Spelled offset text tokens) : (Lexer.before offset text).tokens = .ok tokens := by
  induction h with
  | finish hb =>
    rw [Lexer.tokens_of_next_ok (Lexer.next_blanks hb), Lexer.tokens_exhausted]
    rfl
  | token hb hstart hk hstop he h ih =>
    rw [Lexer.tokens_of_next_ok (Lexer.next_spelling hb hstart hk hstop he), ih]
    rfl

/-- The texts get shorter with each token that is read. -/
theorem Spelled.of_tokens {offset : Nat} {text : List Char} {tokens : List Token}
    (h : (Lexer.before offset text).tokens = .ok tokens) : Spelled offset text tokens := by
  induction hlen : text.length using Nat.strongRecOn generalizing offset text tokens with
  | ind n ih =>
    cases opening text with
    | ended hb =>
      rw [Lexer.tokens_of_next_ok (Lexer.next_blanks hb), Lexer.tokens_exhausted] at h
      cases h
      exact .finish hb
    | stuck hb hc hread =>
      rw [Lexer.tokens_of_next_error (Lexer.next_error hb hc hread)] at h
      cases h
    | @token blanks rest k hb hk he =>
      rw [Lexer.tokens_of_next_ok (Lexer.next_spelling hb rfl hk rfl he)] at h
      obtain ⟨after, ha, rfl⟩ := Except.map_eq_ok.mp h
      have hrest : rest.length < n := hlen ▸ hk.length_lt blanks rest
      exact .token hb rfl hk rfl he (ih _ hrest ha rfl)

/-- The lexer gives the tokens that a text spells. -/
theorem Lexer.tokens_eq_ok_iff {offset : Nat} {text : List Char} {tokens : List Token} :
    (before offset text).tokens = .ok tokens ↔ Spelled offset text tokens :=
  ⟨Spelled.of_tokens, Spelled.tokens_eq_ok⟩

end MicroFrontends
