import Mathlib.Data.List.Basic
import Mathlib.Tactic.SplitIfs
import MicroFrontends.Proofs.Selector.Rejections
import MicroFrontends.Registry.Filtering

/-!
# What callers' texts do to messages

Selectors come from outside, and messages about them show parts of them.

* `Text.isControl`, `Text.isOneLine` : control characters and line breaks, and a text without them;
* `Text.isOneLine_quote`, `Text.isOneLine_quoteChar` : a quoted text has none, whatever it quotes;
* `SelectorError.rawText` : the one text that a message shows without quoting it;
* `Rejected.isOneLine_message` : so a message is one line if and only if that text is;
* `messages_of_rejected` : the messages and the log for a text that is rejected.
-/

namespace MicroFrontends

namespace Text

/-- A control character, or one that separates lines or paragraphs. -/
def isControl (c : Char) : Bool :=
  c.toNat < 0x20 || (0x7F ≤ c.toNat && c.toNat < 0xA0) || c.toNat = 0x2028 || c.toNat = 0x2029

/-- The text has no line break and no other control character. -/
def isOneLine (s : String) : Bool := s.toList.all fun c => !isControl c

@[simp] theorem isOneLine_append (s t : String) :
    isOneLine (s ++ t) = (isOneLine s && isOneLine t) := by
  rw [isOneLine, String.toList_append, List.all_append]
  rfl

theorem isOneLine_ofList {cs : List Char} :
    isOneLine (String.ofList cs) = true ↔ ∀ c ∈ cs, isControl c = false := by
  simp [isOneLine]

/-! ## Numbers -/

theorem isControl_digitChar {d : Nat} (h : d < 16) : isControl d.digitChar = false := by
  have hdigits : ∀ d : Fin 16, isControl d.val.digitChar = false := by decide
  exact hdigits ⟨d, h⟩

theorem isControl_of_mem_toDigits {base : Nat} (hb : 1 < base) (hb' : base ≤ 16) (n : Nat) :
    ∀ c ∈ Nat.toDigits base n, isControl c = false := by
  induction n using Nat.strongRecOn with
  | ind n ih =>
    intro c hc
    by_cases hlt : n < base
    · rw [Nat.toDigits_of_lt_base hlt, List.mem_singleton] at hc
      rw [hc]
      exact isControl_digitChar (by omega)
    · have hdiv : n / base < n := Nat.div_lt_self (by omega) hb
      have hmod : n % base < base := Nat.mod_lt n (by omega)
      rw [Nat.toDigits_of_base_le hb (by omega), List.mem_append, List.mem_singleton] at hc
      rcases hc with hc | hc
      · exact ih (n / base) hdiv c hc
      · rw [hc]
        exact isControl_digitChar (by omega)

@[simp] theorem isOneLine_toString (n : Nat) : isOneLine (toString n) = true :=
  isOneLine_ofList.mpr (isControl_of_mem_toDigits (by decide) (by decide) n)

/-! ## Quoted texts -/

theorem isUnprintable_of_isControl {c : Char} (h : isControl c = true) :
    isUnprintable c = true := by
  simp only [isControl, Bool.or_eq_true, Bool.and_eq_true, decide_eq_true_eq] at h
  have hrange (low high : Nat) (hmem : (low, high) ∈ unprintableRanges) (hl : low ≤ c.toNat)
      (hh : c.toNat ≤ high) : isUnprintable c = true := by
    apply List.any_eq_true.mpr
    refine ⟨(low, high), hmem, ?_⟩
    rw [Bool.and_eq_true, decide_eq_true_eq, decide_eq_true_eq]
    exact ⟨hl, hh⟩
  rcases h with ((h | h) | h) | h
  · exact hrange 0x0 0x1F (by decide) (by omega) (by omega)
  · exact hrange 0x7F 0xA0 (by decide) (by omega) (by omega)
  · exact hrange 0x2028 0x202F (by decide) (by omega) (by omega)
  · exact hrange 0x2028 0x202F (by decide) (by omega) (by omega)

theorem isControl_of_mem_hexEscape {c d : Char} (hd : d ∈ hexEscape c) : isControl d = false := by
  unfold hexEscape at hd
  rw [List.mem_append, List.mem_append] at hd
  rcases hd with (hd | hd) | hd
  · have hopen : d = '\\' ∨ d = 'u' ∨ d = '\x7b' := by simpa using hd
    rcases hopen with rfl | rfl | rfl <;> rfl
  · exact isControl_of_mem_toDigits (by decide) (by decide) c.toNat d hd
  · have hclose : d = '\x7d' := by simpa using hd
    rw [hclose]
    rfl

/-- What is written for a character can be seen. -/
theorem isControl_of_mem_escape {delimiter c d : Char} (hdelimiter : isControl delimiter = false)
    (hd : d ∈ escape delimiter c) : isControl d = false := by
  -- the characters that are written after a backslash
  have hpair (e : Char) (he : isControl e = false) (h : d ∈ ['\\', e]) : isControl d = false := by
    rcases List.mem_pair.mp h with rfl | rfl
    · rfl
    · exact he
  unfold escape at hd
  split_ifs at hd with h0 ht hr hn hself hhidden
  · exact hpair '0' rfl hd
  · exact hpair 't' rfl hd
  · exact hpair 'r' rfl hd
  · exact hpair 'n' rfl hd
  · refine hpair c ?_ hd
    rcases Bool.or_eq_true_iff.mp hself with h | h
    · rw [of_decide_eq_true h]
      rfl
    · rw [of_decide_eq_true h]
      exact hdelimiter
  · exact isControl_of_mem_hexEscape hd
  · obtain rfl := List.mem_singleton.mp hd
    by_contra hcontrol
    have hunprintable := isUnprintable_of_isControl (by simpa using hcontrol)
    simp [hunprintable] at hhidden

@[simp] theorem isOneLine_quote (s : String) : isOneLine (quote s) = true := by
  have hinside : isOneLine (String.ofList (s.toList.flatMap (escape '"'))) = true := by
    apply isOneLine_ofList.mpr
    intro d hd
    obtain ⟨c, -, hd⟩ := List.mem_flatMap.mp hd
    exact isControl_of_mem_escape rfl hd
  rw [quote, isOneLine_append, isOneLine_append, hinside]
  rfl

@[simp] theorem isOneLine_quoteChar (c : Char) : isOneLine (quoteChar c) = true := by
  have hinside : isOneLine (String.ofList (escape '\'' c)) = true := by
    apply isOneLine_ofList.mpr
    intro d hd
    exact isControl_of_mem_escape rfl hd
  rw [quoteChar, isOneLine_append, isOneLine_append, hinside]
  rfl

end Text

/-! ## Messages -/

theorem TokenKind.isOneLine_describe (k : TokenKind) : Text.isOneLine k.describe = true := by
  cases k with
  | label text =>
    have hlabel : Text.isOneLine "label " = true := by decide
    rw [describe, Text.isOneLine_append, hlabel, Text.isOneLine_quote, Bool.and_self]
  | string text =>
    have hstring : Text.isOneLine "string " = true := by decide
    rw [describe, Text.isOneLine_append, hstring, Text.isOneLine_quote, Bool.and_self]
  | _ => decide

theorem Expected.isOneLine_message (x : Expected) : Text.isOneLine x.message = true := by
  cases x with
  | shallowerNesting =>
    have hmost : Text.isOneLine "at most " = true := by decide
    have hlevels : Text.isOneLine " nesting levels" = true := by decide
    rw [message, Text.isOneLine_append, Text.isOneLine_append, hmost, Text.isOneLine_toString,
      hlevels, Bool.and_self, Bool.and_self]
  | _ => decide

/-- The place at the end of a message. -/
theorem Text.isOneLine_atOffset (s : String) (offset : Nat) :
    isOneLine (s ++ " at offset " ++ toString offset) = isOneLine s := by
  have hat : isOneLine " at offset " = true := by decide
  rw [isOneLine_append, isOneLine_append, hat, isOneLine_toString, Bool.and_true, Bool.and_true]

/-- The part of a text that a message shows without quoting it: a literal that does not end. -/
def SelectorError.rawText : SelectorError → String
  | lexical (.unterminated literal _) => literal
  | _ => ""

theorem LexError.isOneLine_message (e : LexError) :
    Text.isOneLine e.message = Text.isOneLine (SelectorError.lexical e).rawText := by
  cases e with
  | unexpectedChar c offset =>
    have hstart : Text.isOneLine "unexpected character " = true := by decide
    have hnone : Text.isOneLine "" = true := by decide
    unfold message
    rw [Text.isOneLine_atOffset, Text.isOneLine_append, hstart, Text.isOneLine_quoteChar]
    exact hnone.symm
  | unterminated literal offset =>
    have hstart : Text.isOneLine "unterminated quoted literal " = true := by decide
    unfold message
    rw [Text.isOneLine_atOffset, Text.isOneLine_append, hstart, Bool.true_and]
    rfl

theorem SyntaxError.isOneLine_message (e : SyntaxError) :
    Text.isOneLine e.message = Text.isOneLine e.found := by
  have hstart : Text.isOneLine "expected " = true := by decide
  have hfound : Text.isOneLine ", found " = true := by decide
  unfold message
  rw [Text.isOneLine_atOffset, Text.isOneLine_append, Text.isOneLine_append,
    Text.isOneLine_append, hstart, Expected.isOneLine_message, hfound]
  rfl

section
variable {source : String} {error : SelectorError}

/-- Whatever the text holds, its message is one line, unless it holds a literal that does not end.
-/
theorem Rejected.isOneLine_message (h : Rejected source error) :
    Text.isOneLine error.message = Text.isOneLine error.rawText := by
  cases h with
  | lexical htext hc hread => exact LexError.isOneLine_message _
  | @syntactic tokens t x htokens ht =>
    rw [SelectorError.message, SyntaxError.isOneLine_message, TokenKind.isOneLine_describe]
    rfl

/-- The literal that does not end is all that is left of the text. -/
theorem Rejected.rawText_suffix (h : Rejected source error) :
    error.rawText.toList <:+ source.toList := by
  cases h with
  | @lexical before rest c htext hc hread =>
    unfold LexError.at
    split_ifs
    · rw [SelectorError.rawText, String.toList_ofList, htext]
      exact List.suffix_append before (c :: rest)
    · exact List.nil_suffix
  | syntactic x htokens ht => exact List.nil_suffix

end

/-! ## The log -/

namespace LogEntry

theorem isOneLine_invalidSelector (p : InvalidSelectorPolicy) (text : String)
    (error : SelectorError) :
    Text.isOneLine (invalidSelector p text error).message = Text.isOneLine error.message := by
  have hname : Text.isOneLine p.name = true := by cases p <;> decide
  have hignoring : Text.isOneLine ": ignoring " = true := by decide
  have hcolon : Text.isOneLine ": " = true := by decide
  have hreason : Text.isOneLine (if p = .matchNone then "entries due to invalid selector "
      else "invalid selector ") = true := by
    split_ifs <;> decide
  unfold message
  rw [Text.isOneLine_append, Text.isOneLine_append, Text.isOneLine_append,
    Text.isOneLine_append, Text.isOneLine_append, hname, hignoring, hreason, Text.isOneLine_quote,
    hcolon]
  rfl

theorem isOneLine_render (e : LogEntry) : Text.isOneLine e.render = Text.isOneLine e.message := by
  have hlevel : Text.isOneLine e.level.name = true := by cases e.level <;> decide
  have hblank : Text.isOneLine " " = true := by decide
  rw [render, Text.isOneLine_append, Text.isOneLine_append, hlevel, hblank]
  rfl

theorem isOneLine_renderWithOrigin (e : LogEntry) :
    Text.isOneLine e.renderWithOrigin = Text.isOneLine e.message := by
  have hlevel : Text.isOneLine e.level.name = true := by cases e.level <;> decide
  have horigin : Text.isOneLine e.origin = true := by
    cases e <;> (rw [origin]; decide)
  have hblank : Text.isOneLine " " = true := by decide
  have hopen : Text.isOneLine "[" = true := by decide
  have hclose : Text.isOneLine "] " = true := by decide
  rw [renderWithOrigin, Text.isOneLine_append, Text.isOneLine_append, Text.isOneLine_append,
    Text.isOneLine_append, Text.isOneLine_append, hopen, hlevel, hblank, horigin, hclose]
  rfl

end LogEntry

/-- With a policy that goes on, a text that is rejected is noted once. -/
theorem PageFilter.log_resolve {text : String} {error : SelectorError}
    (h : Selector.parse text = .error error) (f : PageFilter) (hpolicy : f.policy ≠ .fail) :
    (f.resolve text).log = [.invalidSelector f.policy text error] := by
  unfold resolve
  rw [h]
  cases hp : f.policy with
  | fail => exact absurd hp hpolicy
  | matchNone => rfl
  | matchAll => rfl

/-- All that messages show of a text that is rejected is quoted, and so has no line break or other
control character, but for one thing: a literal that does not end, which is the rest of the text. If
and only if that has none, the message is one line. So is then what the program shows in its own
colours, and with a policy that goes on there is one line in the log. -/
theorem messages_of_rejected {text : String} {error : SelectorError}
    (h : Selector.parse text = .error error) :
    Text.isOneLine error.message = Text.isOneLine error.rawText ∧
      error.rawText.toList <:+ text.toList ∧
      (∃ quoted, Text.isOneLine quoted = true ∧ (ProgramError.selector text error).message =
        "invalid selector " ++ Text.styled "33" quoted "0" ++ ": " ++ error.message) ∧
      ∀ f : PageFilter, f.policy ≠ .fail → ∃ entry, (f.resolve text).log = [entry] ∧
        entry.level = .warn ∧
        Text.isOneLine entry.render = Text.isOneLine error.rawText ∧
        Text.isOneLine entry.renderWithOrigin = Text.isOneLine error.rawText := by
  have hrejected := Selector.rejected h
  have hmessage := hrejected.isOneLine_message
  refine ⟨hmessage, hrejected.rawText_suffix, ?_, ?_⟩
  · exact ⟨Text.quote text, Text.isOneLine_quote text, rfl⟩
  · intro f hpolicy
    refine ⟨_, f.log_resolve h hpolicy, rfl, ?_, ?_⟩
    · rw [LogEntry.isOneLine_render, LogEntry.isOneLine_invalidSelector, hmessage]
    · rw [LogEntry.isOneLine_renderWithOrigin, LogEntry.isOneLine_invalidSelector, hmessage]

/-- A line break that a message has no part in does no harm. -/
theorem messages_of_rejected_newline :
    Selector.parse "\n?" = .error (.lexical (.unexpectedChar '?' 1)) ∧
      Text.isOneLine "\n?" = false ∧
      Text.isOneLine (SelectorError.lexical (.unexpectedChar '?' 1)).message = true ∧
      ∀ page, ∃ entry, ((⟨page, .matchNone⟩ : PageFilter).resolve "\n?").log = [entry] ∧
        Text.isOneLine entry.render = true := by
  have hstart : tokenize (String.ofList (['\n'] ++ ['?'])) = .error (.unexpectedChar '?' 1) :=
    tokenize_blanks_error (List.forall_mem_singleton.mpr rfl) rfl rfl
  have hparse : Selector.parse "\n?" = .error (.lexical (.unexpectedChar '?' 1)) :=
    Selector.parse_of_tokenize_error hstart
  have hnone : Text.isOneLine "" = true := by decide
  obtain ⟨hmessage, -, -, hlog⟩ := messages_of_rejected hparse
  refine ⟨hparse, by decide, hmessage.trans hnone, ?_⟩
  intro page
  obtain ⟨entry, hentry, -, hrender, -⟩ := hlog ⟨page, .matchNone⟩ nofun
  exact ⟨entry, hentry, hrender.trans hnone⟩

/-- A literal that does not end brings its line break into the message and into the log. -/
theorem not_isOneLine_message :
    Selector.parse "\"a\nb" = .error (.lexical (.unterminated "\"a\nb" 0)) ∧
      Text.isOneLine (SelectorError.lexical (.unterminated "\"a\nb" 0)).message = false ∧
      ∀ page, ∃ entry, ((⟨page, .matchNone⟩ : PageFilter).resolve "\"a\nb").log = [entry] ∧
        Text.isOneLine entry.render = false := by
  have hstart : tokenize (String.ofList ([] ++ ['"', 'a', '\n', 'b'])) =
      .error (.unterminated "\"a\nb" 0) :=
    tokenize_blanks_error (List.forall_mem_nil _) rfl rfl
  have hparse : Selector.parse "\"a\nb" = .error (.lexical (.unterminated "\"a\nb" 0)) :=
    Selector.parse_of_tokenize_error hstart
  have hmessage :
      Text.isOneLine (SelectorError.lexical (.unterminated "\"a\nb" 0)).message = false := by
    rw [(Selector.rejected hparse).isOneLine_message]
    decide
  refine ⟨hparse, hmessage, ?_⟩
  intro page
  refine ⟨_, PageFilter.log_resolve hparse ⟨page, .matchNone⟩ nofun, ?_⟩
  rw [LogEntry.isOneLine_render, LogEntry.isOneLine_invalidSelector, hmessage]

end MicroFrontends
