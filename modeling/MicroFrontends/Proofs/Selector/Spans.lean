import Mathlib.Data.List.Chain
import MicroFrontends.Proofs.Selector.Layout

/-!
# Tokens and the text that they stand in

* `Text.Between start stop text part after` : what the text has between two byte offsets, which are
  at character boundaries, and after them;
* `Token.StandsIn` : the text has the spelling of a token at its place, and the token is as long as
  it can be;
* `Span.OnlyBlanks` : the text has but blanks between two places;
* `tokens_cover_source` : the tokens of a text are in it, one after another, and all else is blank.
-/

namespace MicroFrontends

/-- In the text, `part` is what stands between the two byte offsets, and `after` is what follows. -/
def Text.Between (start stop : Nat) (text part after : List Char) : Prop :=
  ∃ before, text = before ++ (part ++ after) ∧ start = byteLength before ∧
    stop = byteLength (before ++ part)

/-- The token is at its place in the text. -/
structure Token.StandsIn (t : Token) (text : List Char) : Prop where
  /-- Labels are words, and no quote stands between quotes. -/
  spellable : t.kind.Spellable
  nonempty : t.span.start < t.span.stop
  /-- The place is where the spelling is, and what follows does not make the token a longer one. -/
  spelled : ∃ after, Text.Between t.span.start t.span.stop text t.kind.spelling after ∧
    t.kind.EndsBefore after

/-- The text from the end of one place to the start of the other one is blank. -/
def Span.OnlyBlanks (text : List Char) (s s' : Span) : Prop :=
  ∃ gap after, Text.Between s.stop s'.start text gap after ∧ ∀ c ∈ gap, isBlank c = true

theorem TokenKind.Spellable.byteLength_pos {k : TokenKind} (h : k.Spellable) :
    0 < Text.byteLength k.spelling := by
  obtain ⟨c, cs, hc, -⟩ := h.exists_cons
  rw [hc, Text.byteLength_cons]
  exact Nat.add_pos_left c.utf8Size_pos _

/-- The tokens of a text that follows `before` are in the whole text, with blanks between them. -/
theorem Spelled.cover {offset : Nat} {text : List Char} {tokens : List Token}
    (h : Spelled offset text tokens) (before : List Char)
    (hoffset : offset = Text.byteLength before) (start : Nat) :
    ∃ words : List Token, tokens = words ++ [.endAt (Text.byteLength (before ++ text))] ∧
      (∀ t ∈ words, t.StandsIn (before ++ text)) ∧
      (⟨start, offset⟩ :: tokens.map (·.span)).IsChain (Span.OnlyBlanks (before ++ text)) := by
  induction h generalizing before start with
  | @finish offset blanks hb =>
    have hend : offset + Text.byteLength blanks = Text.byteLength (before ++ blanks) := by
      rw [hoffset, Text.byteLength_append]
    rw [hend]
    refine ⟨[], rfl, List.forall_mem_nil _, .cons_cons ?_ (.singleton _)⟩
    exact ⟨blanks, [], ⟨before, by rw [List.append_nil], hoffset, rfl⟩, hb⟩
  | @token offset start' stop blanks text k tokens hb hstart hk hstop he h ih =>
    have hpos := hk.byteLength_pos
    have hat : start' = Text.byteLength (before ++ blanks) := by
      rw [hstart, hoffset, Text.byteLength_append]
    have hto : stop = Text.byteLength (before ++ blanks ++ k.spelling) := by
      rw [hstop, hat, Text.byteLength_append _ k.spelling]
    have hsplit : before ++ (blanks ++ (k.spelling ++ text)) =
        before ++ blanks ++ k.spelling ++ text := by simp only [List.append_assoc]
    obtain ⟨words, rfl, hwords, hchain⟩ := ih (before ++ blanks ++ k.spelling) hto start'
    rw [hsplit]
    refine ⟨⟨k, start', stop⟩ :: words, rfl, ?_, .cons_cons ?_ hchain⟩
    · refine List.forall_mem_cons.mpr ⟨⟨hk, by dsimp only; omega, text, ?_, he⟩, hwords⟩
      exact ⟨before ++ blanks, by rw [List.append_assoc], hat, hto⟩
    · refine ⟨blanks, k.spelling ++ text, ⟨before, ?_, hoffset, hat⟩, hb⟩
      simp only [List.append_assoc]

/-- The last token of a text is at its end, where the text is over. The others are where the text
has their spelling, each at or after the end of the one before it, and none can be made longer.
Between them, before the first one and after the last, there are only blanks. -/
theorem tokens_cover_source {source : String} {tokens : List Token}
    (h : tokenize source = .ok tokens) :
    ∃ words : List Token, tokens = words ++ [.endAt source.utf8ByteSize] ∧
      (∀ t ∈ words, t.StandsIn source.toList) ∧
      (.emptyAt 0 :: tokens.map (·.span)).IsChain (Span.OnlyBlanks source.toList) := by
  have hspelled : Spelled 0 source.toList tokens := .of_tokens h
  have hcover := hspelled.cover [] rfl 0
  rwa [List.nil_append, Text.byteLength_toList] at hcover

/-- The places count the two bytes of `é` and the quotes around it. -/
theorem tokens_cover_source_accented :
    tokenize "! a!=\"é\" " =
        .ok [⟨.not, 0, 1⟩, ⟨.label "a", 2, 3⟩, ⟨.notEquals, 3, 5⟩, ⟨.string "é", 5, 9⟩, .endAt 10] ∧
      ∃ words : List Token,
        [⟨.not, 0, 1⟩, ⟨.label "a", 2, 3⟩, ⟨.notEquals, 3, 5⟩, ⟨.string "é", 5, 9⟩, .endAt 10] =
          words ++ [.endAt "! a!=\"é\" ".utf8ByteSize] ∧
        (∀ t ∈ words, t.StandsIn "! a!=\"é\" ".toList) ∧
        [Span.emptyAt 0, ⟨0, 1⟩, ⟨2, 3⟩, ⟨3, 5⟩, ⟨5, 9⟩, .emptyAt 10].IsChain
          (Span.OnlyBlanks "! a!=\"é\" ".toList) := by
  let gap : Blanks := ⟨[], List.forall_mem_nil _⟩
  let blank : Blanks := ⟨[' '], List.forall_mem_singleton.mpr rfl⟩
  let l : Layout := .word gap ⟨.not, trivial⟩ (.word blank ⟨.label "a", rfl⟩
    (.word gap ⟨.notEquals, trivial⟩ (.word gap ⟨.string "é", by simp [TokenKind.Spellable]⟩
      (.finish blank))))
  have hl : l.Separated := by simp [l, Layout.Separated, Layout.SeparatedFrom, TokenKind.mergesWith]
  have htext : String.ofList l.text = "! a!=\"é\" " := rfl
  have htokens : l.tokens 0 =
      [⟨.not, 0, 1⟩, ⟨.label "a", 2, 3⟩, ⟨.notEquals, 3, 5⟩, ⟨.string "é", 5, 9⟩, .endAt 10] := by
    decide
  have h : tokenize "! a!=\"é\" " =
      .ok [⟨.not, 0, 1⟩, ⟨.label "a", 2, 3⟩, ⟨.notEquals, 3, 5⟩, ⟨.string "é", 5, 9⟩, .endAt 10] := by
    rw [← htext, ← htokens]
    exact l.tokenize_text_iff.mpr hl
  exact ⟨h, tokens_cover_source h⟩

end MicroFrontends
