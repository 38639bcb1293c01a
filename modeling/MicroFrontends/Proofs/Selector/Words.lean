import MicroFrontends.Proofs.Selector.Spelling
import MicroFrontends.Selector.Printer

/-!
# Printed labels and values as tokens

The printer judges a label or a value by its bytes, the lexer reads words character by character.
Both come to the same texts (`isPlain_eq_isWord`). So what the printer writes as it is, the lexer
reads as one word, and what it puts between quotes, the lexer reads as one string.

* `IsToken k text` : the lexer finds one token in the text, which is all of it;
* `TokenKind.Occurs` : the lexer finds such a token in some text;
* `isPlain_iff_isToken` : which texts are printed as one token, and which expressions have labels
  and values that occur.
-/

namespace MicroFrontends

/-! ## Bytes of words -/

section
variable {b : UInt8} {c : Char}

theorem lt_of_isAlphanumByte (h : isAlphanumByte b = true) : b < 128 := by
  simp only [isAlphanumByte, Bool.or_eq_true, Bool.and_eq_true, decide_eq_true_eq] at h
  rcases h with (⟨-, hb⟩ | ⟨-, hb⟩) | ⟨-, hb⟩ <;> exact UInt8.lt_of_le_of_lt hb (by decide)

theorem lt_of_isPlainByte (h : isPlainByte b = true) : b < 128 := by
  simp only [isPlainByte, Bool.or_eq_true, decide_eq_true_eq] at h
  rcases h with ((h | rfl) | rfl) | rfl
  · exact lt_of_isAlphanumByte h
  all_goals decide

/-- The bytes of characters that take several are in no class. -/
theorem byteClasses_of_le (h : 128 ≤ b) : isAlphanumByte b = false ∧ isPlainByte b = false := by
  have hlt : ¬ b < 128 := UInt8.not_lt.mpr h
  exact ⟨Bool.eq_false_iff.mpr fun hb => hlt (lt_of_isAlphanumByte hb),
    Bool.eq_false_iff.mpr fun hb => hlt (lt_of_isPlainByte hb)⟩

theorem lt_of_isWordStart (h : isWordStart c = true) : c.toNat < 128 := by
  have hlt {top : UInt32} (htop : top < 128) (hc : c.val ≤ top) : c.toNat < 128 :=
    UInt32.lt_iff_toNat_lt.mp (UInt32.lt_of_le_of_lt hc htop)
  rcases (Bool.or_eq_true _ _).mp h with hletter | hdigit
  · rcases (Bool.or_eq_true _ _).mp hletter with hupper | hlower
    · exact hlt (by decide) (of_decide_eq_true hupper).2
    · exact hlt (by decide) (of_decide_eq_true ((Bool.and_eq_true _ _).mp hlower).2)
  · exact hlt (by decide) (of_decide_eq_true ((Bool.and_eq_true _ _).mp hdigit).2)

theorem lt_of_isWordChar (h : isWordChar c = true) : c.toNat < 128 := by
  simp only [isWordChar, Bool.or_eq_true, decide_eq_true_eq] at h
  rcases h with ((h | rfl) | rfl) | rfl
  · exact lt_of_isWordStart h
  all_goals decide

theorem wordClasses_of_le (h : 128 ≤ c.toNat) : isWordStart c = false ∧ isWordChar c = false := by
  have hlt : ¬ c.toNat < 128 := Nat.not_lt.mpr h
  exact ⟨Bool.eq_false_iff.mpr fun hc => hlt (lt_of_isWordStart hc),
    Bool.eq_false_iff.mpr fun hc => hlt (lt_of_isWordChar hc)⟩

/-- The classes of bytes are those of the characters that are one byte. -/
theorem byteClasses_toUInt8 (h : c.toNat < 128) :
    isAlphanumByte c.toUInt8 = isWordStart c ∧ isPlainByte c.toUInt8 = isWordChar c := by
  have hall : ∀ n < 128, isAlphanumByte (UInt8.ofNat n) = isWordStart (Char.ofNat n) ∧
      isPlainByte (UInt8.ofNat n) = isWordChar (Char.ofNat n) := by decide
  have hc := hall c.toNat h
  rwa [Char.ofNat_toNat] at hc

end

theorem all_isPlainByte_bytes (cs : List Char) :
    (Text.bytes cs).all isPlainByte = cs.all isWordChar := by
  induction cs with
  | nil => rfl
  | cons c cs ih =>
    rcases Nat.lt_or_ge c.toNat 128 with hc | hc
    · rw [Text.bytes_cons_of_lt hc, List.all_cons, List.all_cons, (byteClasses_toUInt8 hc).2, ih]
    · obtain ⟨b, bs, hbytes, hb⟩ := Text.bytes_cons_of_le hc cs
      rw [hbytes, List.all_cons, List.all_cons, (byteClasses_of_le hb).2, (wordClasses_of_le hc).2]
      rfl

/-- The printer and the lexer have the same words. -/
theorem isPlain_eq_isWord (text : String) : isPlain text = isWord text.toList := by
  unfold isPlain
  cases text.toList with
  | nil => rfl
  | cons c cs =>
    rw [isWord]
    rcases Nat.lt_or_ge c.toNat 128 with hc | hc
    · rw [Text.bytes_cons_of_lt hc]
      show (isAlphanumByte c.toUInt8 && (Text.bytes cs).all isPlainByte) = _
      rw [(byteClasses_toUInt8 hc).1, all_isPlainByte_bytes]
    · obtain ⟨b, bs, hbytes, hb⟩ := Text.bytes_cons_of_le hc cs
      rw [hbytes]
      show (isAlphanumByte b && bs.all isPlainByte) = _
      rw [(byteClasses_of_le hb).1, (wordClasses_of_le hc).1]
      rfl

/-- What may follow in a word does not begin one. -/
example : ["7.x_y-z", "-z", "é", ""].map isPlain = [true, false, false, false] := by decide

theorem quote_notMem_of_isWord {cs : List Char} (h : isWord cs = true) : '"' ∉ cs := by
  cases cs with
  | nil => exact List.not_mem_nil
  | cons c cs =>
    simp only [isWord, Bool.and_eq_true, List.all_eq_true] at h
    intro hq
    rcases List.mem_cons.mp hq with rfl | hq
    · exact absurd h.1 (by decide)
    · exact absurd (h.2 _ hq) (by decide)

/-! ## Texts of one token -/

theorem TokenKind.endsBefore_nil (k : TokenKind) : k.EndsBefore [] := by
  cases k <;> simp [EndsBefore]

/-- The text is one token of the kind, from its start to its end. -/
def IsToken (k : TokenKind) (text : String) : Prop :=
  tokenize text = .ok [⟨k, 0, text.utf8ByteSize⟩, .endAt text.utf8ByteSize]

/-- Some text has a token of the kind. -/
def TokenKind.Occurs (k : TokenKind) : Prop :=
  ∃ source tokens, tokenize source = .ok tokens ∧ ∃ t ∈ tokens, t.kind = k

section
variable {k : TokenKind}

theorem TokenKind.Spellable.isToken (h : k.Spellable) {text : String}
    (ht : text.toList = k.spelling) : IsToken k text := by
  have hb : ∀ c ∈ ([] : List Char), isBlank c = true := List.forall_mem_nil _
  have hspelled : Spelled 0 ([] ++ (k.spelling ++ [])) _ :=
    .token hb rfl h rfl k.endsBefore_nil (.finish hb)
  rw [List.nil_append, List.append_nil, ← ht] at hspelled
  have htokens := hspelled.tokens_eq_ok
  simp only [Text.byteLength_nil, Nat.zero_add, Nat.add_zero, Text.byteLength_toList] at htokens
  exact htokens

theorem TokenKind.Occurs.spellable (h : k.Occurs) (hk : k ≠ .endOfInput) : k.Spellable := by
  obtain ⟨source, tokens, htokens, t, ht, rfl⟩ := h
  exact (Lexer.tokens_eq_ok_iff.mp htokens).spellable t ht hk

theorem IsToken.occurs {text : String} (h : IsToken k text) : k.Occurs :=
  ⟨text, _, h, _, List.mem_cons_self, rfl⟩

/-- Just the kinds that have a text occur, for instance in that text. -/
theorem TokenKind.occurs_iff (hk : k ≠ .endOfInput) : k.Occurs ↔ k.Spellable :=
  ⟨fun h => h.spellable hk, fun h => (h.isToken String.toList_ofList).occurs⟩

end

/-! ## Labels and values -/

namespace Expr

/-- The labels that the expression asks for. -/
def labels : Expr → List String
  | present label | equals label _ => [label]
  | not arg => arg.labels
  | and lhs rhs | or lhs rhs => lhs.labels ++ rhs.labels

/-- The values that the expression compares labels with. -/
def values : Expr → List String
  | present _ => []
  | equals _ value => [value]
  | not arg => arg.values
  | and lhs rhs | or lhs rhs => lhs.values ++ rhs.values

theorem isRepresentable_iff (e : Expr) : e.isRepresentable = true ↔
    (∀ label ∈ e.labels, isPlain label = true) ∧ ∀ value ∈ e.values, '"' ∉ value.toList := by
  induction e with
  | present label => simp [isRepresentable, labels, values]
  | equals label value => simp [isRepresentable, labels, values]
  | not arg ih => exact ih
  | and lhs rhs ihl ihr | or lhs rhs ihl ihr =>
    rw [isRepresentable, Bool.and_eq_true, ihl, ihr, labels, values, List.forall_mem_append,
      List.forall_mem_append]
    exact and_and_and_comm

end Expr

theorem occurs_label_iff (label : String) :
    (TokenKind.label label).Occurs ↔ isPlain label = true := by
  rw [TokenKind.occurs_iff (by simp), isPlain_eq_isWord]
  rfl

theorem occurs_string_iff (value : String) :
    (TokenKind.string value).Occurs ↔ '"' ∉ value.toList := TokenKind.occurs_iff (by simp)

theorem isToken_label_of_isPlain {s : String} (h : isPlain s = true) : IsToken (.label s) s := by
  rw [isPlain_eq_isWord] at h
  exact TokenKind.Spellable.isToken (k := .label s) h rfl

theorem isToken_string_of_notMem {s : String} (h : '"' ∉ s.toList) :
    IsToken (.string s) ("\"" ++ s ++ "\"") :=
  TokenKind.Spellable.isToken (k := .string s) h (by simp [TokenKind.spelling])

/-- What the printer takes for a word is just what the lexer reads as one label, and a text between
quotes is read as one string just if it has no quote itself. So the values without a quote are those
that are printed as one token that stands for them, and an expression is representable just if the
lexer can find all of its labels and values. -/
theorem isPlain_iff_isToken (s : String) :
    (isPlain s = true ↔ IsToken (.label s) s) ∧
      ((∃ tokens, tokenize ("\"" ++ s ++ "\"") = .ok tokens ∧
          tokens.map (·.kind) = [.string s, .endOfInput]) ↔ '"' ∉ s.toList) ∧
      ((∃ k ∈ [.label s, .string s], IsToken k (renderValue s)) ↔ '"' ∉ s.toList) ∧
      ∀ e : Expr, e.isRepresentable = true ↔
        (∀ label ∈ e.labels, (TokenKind.label label).Occurs) ∧
          ∀ value ∈ e.values, (TokenKind.string value).Occurs := by
  refine ⟨⟨isToken_label_of_isPlain, fun h => (occurs_label_iff s).mp h.occurs⟩,
    ⟨?_, fun h => ⟨_, isToken_string_of_notMem h, rfl⟩⟩, ⟨?_, fun h => ?_⟩, fun e => ?_⟩
  · rintro ⟨tokens, htokens, hkinds⟩
    have hmem : TokenKind.string s ∈ tokens.map (·.kind) := hkinds ▸ List.mem_cons_self
    obtain ⟨t, ht, hk⟩ := List.mem_map.mp hmem
    exact (occurs_string_iff s).mp ⟨_, tokens, htokens, t, ht, hk⟩
  · rintro ⟨k, hk, htoken⟩
    rcases List.mem_cons.mp hk with rfl | hk
    · have hplain := (occurs_label_iff s).mp htoken.occurs
      exact quote_notMem_of_isWord (isPlain_eq_isWord s ▸ hplain)
    · obtain rfl := List.mem_singleton.mp hk
      exact (occurs_string_iff s).mp htoken.occurs
  · unfold renderValue
    split
    · next hs => exact ⟨_, by simp, isToken_label_of_isPlain hs⟩
    · exact ⟨_, by simp, isToken_string_of_notMem h⟩
  · simp only [occurs_label_iff, occurs_string_iff]
    exact e.isRepresentable_iff

end MicroFrontends
