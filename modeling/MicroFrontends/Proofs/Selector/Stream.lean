import MicroFrontends.Proofs.Selector.Layout

/-!
# What the streaming lexer yields

* `Lexer.advance`, `Lexer.call` : the lexer after a call, and what each call yields;
* `Lexer.Scans lexer words last` : the calls yield the words in turn, then `last`, and nothing more;
* `LexError.Fits` : the error says what is wrong with the text at a place where no token begins
  (`LexError.fits_iff`);
* `Layout.EndsBefore` : the text after a layout does not go on with its tokens, so that the lexer
  scans them whatever comes then (`Lexer.scans_text`);
* `Lexer.exists_scans` : every text begins with such a layout, after which the lexer `Lexer.Halts`;
* `lexer_calls` : the calls of the lexer, and the tokens of a text as a whole, for every text.
-/

namespace MicroFrontends

namespace Lexer

/-- The lexer after a call. One that is exhausted stays so. -/
def advance (lexer : Lexer) : Lexer :=
  match lexer.next with
  | some (_, after) => after
  | none => lexer

/-- What a call yields after `n` other calls. -/
def call (lexer : Lexer) : (n : Nat) → Option (Except LexError Token)
  | 0 => lexer.next.map Prod.fst
  | n + 1 => lexer.advance.call n

/-- The calls yield the words and then the last outcome, and so are the tokens as a whole. -/
structure Scans (lexer : Lexer) (words : List Token) (last : Except LexError Token) : Prop where
  calls : ∀ n, lexer.call n = (words.map .ok ++ [last])[n]?
  collected : lexer.tokens = last.map fun t => words ++ [t]

theorem call_exhausted (n : Nat) : exhausted.call n = none := by
  induction n with
  | zero => rfl
  | succ n ih => exact ih

variable {lexer after : Lexer}

theorem advance_eq {r : Except LexError Token} (h : lexer.next = some (r, after)) :
    lexer.advance = after := by
  rw [advance, h]

theorem Scans.last {r : Except LexError Token} (h : lexer.next = some (r, exhausted)) :
    lexer.Scans [] r where
  calls n := by
    cases n with
    | zero => rw [call, h]; rfl
    | succ n => rw [call, advance_eq h, call_exhausted]; rfl
  collected := by
    cases r with
    | error e => exact tokens_of_next_error h
    | ok t => rw [tokens_of_next_ok h, tokens_exhausted]; rfl

theorem Scans.cons {t : Token} {words : List Token} {last : Except LexError Token}
    (h : lexer.next = some (.ok t, after)) (hs : after.Scans words last) :
    lexer.Scans (t :: words) last where
  calls n := by
    cases n with
    | zero => rw [call, h]; rfl
    | succ n => rw [call, advance_eq h, hs.calls]; rfl
  collected := by
    rw [tokens_of_next_ok h, hs.collected]
    cases last <;> rfl

/-- The calls say which words and which last outcome they are. -/
theorem Scans.unique {words words' : List Token} {last last' : Except LexError Token}
    (h : lexer.Scans words last) (h' : lexer.Scans words' last') :
    words = words' ∧ last = last' := by
  have hcalls : words.map Except.ok ++ [last] = words'.map Except.ok ++ [last'] :=
    List.ext_getElem? fun n => (h.calls n).symm.trans (h'.calls n)
  obtain ⟨hwords, hlast⟩ := List.append_inj' hcalls rfl
  exact ⟨(List.map_inj_right fun _ _ => Except.ok.inj).mp hwords, List.singleton_inj.mp hlast⟩

end Lexer

/-! ## Errors -/

/-- No token begins with `c` in the text that has `before` in front of `c` and `rest` behind it, and
this is what the error says. -/
def LexError.Fits (e : LexError) (before : List Char) (c : Char) (rest : List Char) : Prop :=
  e.offset = Text.byteLength before ∧
    match e with
    | unterminated literal _ => c = '"' ∧ '"' ∉ rest ∧ literal = String.ofList (c :: rest)
    | unexpectedChar char _ => char = c ∧ c ∉ [' ', '\t', '\r', '\n', '\x0c'] ∧
      c.isAlphanum = false ∧ c ∉ ['!', '=', '(', ')', '"'] ∧
      ¬ ['&', '&'] <+: c :: rest ∧ ¬ ['|', '|'] <+: c :: rest

theorem isBlank_eq_false_iff {c : Char} :
    isBlank c = false ↔ c ∉ [' ', '\t', '\r', '\n', '\x0c'] := by
  simp [isBlank, and_assoc]

theorem Lexeme.read?_quote_eq_none_iff {rest : List Char} :
    read? ('"' :: rest) = none ↔ '"' ∉ rest := by
  have hopen : rest.dropWhile (· != '"') = [] ↔ '"' ∉ rest := by
    rw [List.dropWhile_eq_nil_iff, ← List.forall_mem_ne']
    simp only [bne_iff_ne, ne_eq]
  rw [read?.eq_8, ← hopen]
  cases rest.dropWhile (· != '"') <;> simp

theorem Lexeme.read?_eq_none_iff {c : Char} {rest : List Char} (hq : c ≠ '"') :
    read? (c :: rest) = none ↔ c.isAlphanum = false ∧ c ∉ ['!', '=', '(', ')', '"'] ∧
      ¬ ['&', '&'] <+: c :: rest ∧ ¬ ['|', '|'] <+: c :: rest := by
  constructor
  · intro h
    refine ⟨?_, ?_, ?_, ?_⟩
    · cases hc : c.isAlphanum with
      | false => rfl
      | true => rw [read?_of_isWordStart hc] at h; cases h
    · intro hmem
      have hsign : c = '!' ∨ c = '=' ∨ c = '(' ∨ c = ')' := by simpa [hq] using hmem
      rcases hsign with rfl | rfl | rfl | rfl
      · -- the one sign that is read together with what follows it
        by_cases hr : ∃ r, rest = '=' :: r
        · obtain ⟨r, rfl⟩ := hr
          cases h
        · rw [read?.eq_4 rest fun r h' => hr ⟨r, h'⟩] at h
          cases h
      all_goals cases h
    · rintro ⟨r, hr⟩
      rw [← hr] at h
      cases h
    · rintro ⟨r, hr⟩
      rw [← hr] at h
      cases h
  · rintro ⟨hword, hsign, hand, hor⟩
    simp only [List.mem_cons, List.not_mem_nil, or_false, not_or] at hsign
    obtain ⟨hnot, hequals, hopen, hclose, -⟩ := hsign
    rw [read?.eq_9 c rest]
    · exact if_neg (Bool.eq_false_iff.mp hword)
    · rintro r rfl rfl
      exact hand (List.prefix_append ['&', '&'] r)
    · rintro r rfl rfl
      exact hor (List.prefix_append ['|', '|'] r)
    · exact fun _ h _ => hnot h
    all_goals assumption

/-- An error fits exactly if it is the one that the lexer gives where no token begins. -/
theorem LexError.fits_iff {e : LexError} {before rest : List Char} {c : Char} :
    e.Fits before c rest ↔ isBlank c = false ∧ Lexeme.read? (c :: rest) = none ∧
      e = .at (Text.byteLength before) c rest := by
  constructor
  · intro h
    cases e with
    | unterminated literal offset =>
      obtain ⟨hoffset, rfl, hquote, rfl⟩ := h
      exact ⟨rfl, Lexeme.read?_quote_eq_none_iff.mpr hquote, by rw [← hoffset]; rfl⟩
    | unexpectedChar char offset =>
      obtain ⟨hoffset, rfl, hc, hnone⟩ := h
      have hq : char ≠ '"' := by
        rintro rfl
        exact absurd hnone.2.1 (by decide)
      refine ⟨isBlank_eq_false_iff.mpr hc, (Lexeme.read?_eq_none_iff hq).mpr hnone, ?_⟩
      rw [LexError.at, if_neg hq, ← hoffset]
      rfl
  · rintro ⟨hc, hread, rfl⟩
    by_cases hq : c = '"'
    · subst hq
      exact ⟨rfl, rfl, Lexeme.read?_quote_eq_none_iff.mp hread, rfl⟩
    · rw [LexError.at, if_neg hq]
      exact ⟨rfl, rfl, isBlank_eq_false_iff.mp hc, (Lexeme.read?_eq_none_iff hq).mp hread⟩

/-! ## Layouts and what follows them -/

/-- A token does not go on with the text after it if it does not with a longer text. -/
theorem TokenKind.EndsBefore.of_append {k : TokenKind} {text rest : List Char}
    (h : k.EndsBefore (text ++ rest)) : k.EndsBefore text := by
  rw [TokenKind.endsBefore_iff] at h ⊢
  intro c hc
  apply h c
  rw [List.head?_append, Option.mem_def.mp hc]
  rfl

namespace Layout

/-- Followed by the rest of a text, no token of the layout goes on with what comes after it. -/
def EndsBefore : Layout → (rest : List Char) → Prop
  | finish _, _ => True
  | word _ w others, rest => w.val.EndsBefore (others.text ++ rest) ∧ others.EndsBefore rest

theorem EndsBefore.separated {l : Layout} {rest : List Char} (h : l.EndsBefore rest) :
    l.Separated := by
  induction l with
  | finish blanks => trivial
  | word blanks w others ih => exact ⟨endsBefore_text_iff.mp h.1.of_append, ih h.2⟩

theorem endsBefore_nil_iff {l : Layout} : l.EndsBefore [] ↔ l.Separated := by
  refine ⟨EndsBefore.separated, fun h => ?_⟩
  induction l with
  | finish blanks => trivial
  | word blanks w others ih =>
    refine ⟨?_, ih h.2⟩
    rw [List.append_nil]
    exact endsBefore_text_iff.mpr h.1

theorem kind_ne_endOfInput (l : Layout) (offset : Nat) :
    ∀ t ∈ l.words offset, t.kind ≠ .endOfInput := by
  induction l generalizing offset with
  | finish blanks => exact List.forall_mem_nil _
  | word blanks w others ih =>
    refine List.forall_mem_cons.mpr ⟨?_, ih _⟩
    intro hend
    exact (show TokenKind.Spellable .endOfInput from hend ▸ w.property).elim

end Layout

/-! ## All calls -/

namespace Lexer

/-- Where a text goes on with no token, it is over or the error is that none begins. -/
inductive Halts (offset : Nat) : List Char → Except LexError Token → Prop where
  | ended : Halts offset [] (.ok (.endAt offset))
  | stuck {c : Char} {rest : List Char} (hc : isBlank c = false)
      (h : Lexeme.read? (c :: rest) = none) :
      Halts offset (c :: rest) (.error (.at offset c rest))

/-- Every text begins with a layout after which the lexer halts. -/
theorem exists_halts (offset : Nat) (text : List Char) :
    ∃ l : Layout, ∃ rest last, text = l.text ++ rest ∧ l.EndsBefore rest ∧
      Halts (offset + Text.byteLength l.text) rest last := by
  induction hlen : text.length using Nat.strongRecOn generalizing offset text with
  | ind n ih =>
    cases opening text with
    | ended hb => exact ⟨.finish ⟨text, hb⟩, [], _, (List.append_nil text).symm, trivial, .ended⟩
    | @stuck blanks rest c hb hc hread =>
      exact ⟨.finish ⟨blanks, hb⟩, c :: rest, _, rfl, trivial, .stuck hc hread⟩
    | @token blanks others k hb hk he =>
      have hshorter : others.length < n := hlen ▸ hk.length_lt blanks others
      let stop := offset + Text.byteLength blanks + Text.byteLength k.spelling
      obtain ⟨l, rest, last, rfl, hl, hhalts⟩ := ih _ hshorter stop others rfl
      refine ⟨.word ⟨blanks, hb⟩ ⟨k, hk⟩ l, rest, last, ?_, ⟨he, hl⟩, ?_⟩
      · simp only [Layout.text, List.append_assoc]
      · simpa only [Layout.text, Text.byteLength_append, Nat.add_assoc, stop] using hhalts

/-- The lexer scans the words of a layout, and halts where the rest of the text makes it. -/
theorem scans_text {l : Layout} {offset : Nat} {rest : List Char} {last : Except LexError Token}
    (hl : l.EndsBefore rest) (h : Halts (offset + Text.byteLength l.text) rest last) :
    (before offset (l.text ++ rest)).Scans (l.words offset) last := by
  induction l generalizing offset with
  | finish blanks =>
    cases h with
    | ended =>
      rw [List.append_nil]
      exact .last (next_blanks blanks.property)
    | stuck hc hread => exact .last (next_error blanks.property hc hread)
  | word blanks w others ih =>
    rw [Layout.text, Text.byteLength_append, Text.byteLength_append, ← Nat.add_assoc,
      ← Nat.add_assoc] at h
    rw [Layout.text, List.append_assoc, List.append_assoc]
    exact .cons (next_spelling blanks.property rfl w.property rfl hl.1) (ih hl.2 h)

theorem scans_ofText {source : String} {l : Layout} {rest : List Char}
    {last : Except LexError Token} (htext : source.toList = l.text ++ rest) (hl : l.EndsBefore rest)
    (h : Halts (Text.byteLength l.text) rest last) : (ofText source).Scans (l.words 0) last := by
  rw [ofText, htext]
  rw [← Nat.zero_add (Text.byteLength l.text)] at h
  exact scans_text hl h

theorem exists_scans (source : String) : ∃ l : Layout, ∃ rest last,
    source.toList = l.text ++ rest ∧ l.EndsBefore rest ∧ Halts (Text.byteLength l.text) rest last ∧
      (ofText source).Scans (l.words 0) last := by
  obtain ⟨l, rest, last, htext, hl, hhalts⟩ := exists_halts 0 source.toList
  rw [Nat.zero_add] at hhalts
  exact ⟨l, rest, last, htext, hl, hhalts, scans_ofText htext hl hhalts⟩

end Lexer

/-- Every text begins with a layout of tokens. The lexer yields these, then either the end of the
text or an error, and nothing after that; the tokens as a whole are those, or that error. At the end
of the text nothing follows the layout. An error fits what follows, and the layout alone has exactly
the tokens that were yielded before it. Conversely, the lexer yields the tokens of any layout that
the text is made of, and wherever an error fits after a layout, it yields the tokens of that layout
and then the error. -/
theorem lexer_calls (source : String) :
    ∃ (l : Layout) (rest : List Char) (last : Except LexError Token),
      source.toList = l.text ++ rest ∧ l.Separated ∧ l.EndsBefore rest ∧
      (∀ t ∈ l.words 0, t.kind ≠ .endOfInput) ∧
      (∀ n, (Lexer.ofText source).call n = ((l.words 0).map .ok ++ [last])[n]?) ∧
      tokenize source = last.map (fun t => l.words 0 ++ [t]) ∧
      (match last with
      | .ok t => rest = [] ∧ t = .endAt source.utf8ByteSize
      | .error e => ∃ c others, rest = c :: others ∧ e.Fits l.text c others ∧
          tokenize (String.ofList l.text) = .ok (l.words 0 ++ [.endAt e.offset])) ∧
      (∀ l' : Layout, source.toList = l'.text → l'.Separated →
        l'.words 0 = l.words 0 ∧ last = .ok (.endAt source.utf8ByteSize)) ∧
      ∀ (l' : Layout) (c : Char) (others : List Char) (e : LexError),
        source.toList = l'.text ++ c :: others → l'.EndsBefore (c :: others) →
        e.Fits l'.text c others → l'.words 0 = l.words 0 ∧ last = .error e := by
  obtain ⟨l, rest, last, htext, hl, hhalts, hscans⟩ := Lexer.exists_scans source
  refine ⟨l, rest, last, htext, hl.separated, hl, l.kind_ne_endOfInput 0, hscans.calls,
    hscans.collected, ?_, ?_, ?_⟩
  · cases hhalts with
    | ended => exact ⟨rfl, by rw [← Text.byteLength_toList, htext, List.append_nil]⟩
    | @stuck c others hc hread =>
      have hfits : LexError.Fits _ l.text c others := LexError.fits_iff.mpr ⟨hc, hread, rfl⟩
      refine ⟨c, others, rfl, hfits, ?_⟩
      rw [l.tokenize_text_iff.mpr hl.separated, hfits.1, Layout.tokens, Nat.zero_add]
  · intro l' htext' hl'
    have hscans' : (Lexer.ofText source).Scans (l'.words 0)
        (.ok (.endAt (Text.byteLength l'.text))) :=
      Lexer.scans_ofText (htext'.trans (List.append_nil _).symm)
        (Layout.endsBefore_nil_iff.mpr hl') .ended
    obtain ⟨hwords, hlast⟩ := hscans'.unique hscans
    exact ⟨hwords, by rw [← hlast, ← Text.byteLength_toList, htext']⟩
  · intro l' c others e htext' hl' hfits
    obtain ⟨hc, hread, rfl⟩ := LexError.fits_iff.mp hfits
    obtain ⟨hwords, hlast⟩ := (Lexer.scans_ofText htext' hl' (.stuck hc hread)).unique hscans
    exact ⟨hwords, hlast.symm⟩

/-- Half of an `&&`, behind a character of two bytes. -/
theorem lexer_calls_half_sign :
    let words : List Token := [⟨.label "a", 0, 1⟩, ⟨.equals, 1, 2⟩, ⟨.string "é", 2, 6⟩]
    let error : LexError := .unexpectedChar '&' 7
    tokenize "a=\"é\" &b" = .error error ∧ tokenize "a=\"é\" " = .ok (words ++ [.endAt 7]) ∧
      ∀ n, (Lexer.ofText "a=\"é\" &b").call n = (words.map .ok ++ [.error error])[n]? := by
  intro words error
  let gap : Blanks := ⟨[], List.forall_mem_nil _⟩
  let l : Layout := .word gap ⟨.label "a", rfl⟩ (.word gap ⟨.equals, trivial⟩
    (.word gap ⟨.string "é", by simp [TokenKind.Spellable]⟩ (.finish ⟨[' '], by simp [isBlank]⟩)))
  have hl : l.EndsBefore ['&', 'b'] := by
    simp [l, gap, Layout.EndsBefore, TokenKind.EndsBefore, Layout.text, TokenKind.spelling,
      isWordChar]
  have hfits : error.Fits l.text '&' ['b'] := ⟨by decide, rfl, by decide⟩
  obtain ⟨found, rest, last, -, -, -, -, hcalls, htokens, -, -, hfails⟩ :=
    lexer_calls "a=\"é\" &b"
  obtain ⟨hwords, rfl⟩ := hfails l '&' ['b'] error rfl hl hfits
  rw [← hwords] at hcalls htokens
  exact ⟨htokens, l.tokenize_text_iff.mpr hl.separated, hcalls⟩

end MicroFrontends
