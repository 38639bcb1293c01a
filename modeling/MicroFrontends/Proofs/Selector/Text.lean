import MicroFrontends.Proofs.Selector.Reading
import MicroFrontends.Proofs.Selector.Words

/-!
# The text of a derivation

* `Derivation.text` : the tokens of a derivation with one blank on each side of `&&` and `||`;
* `Writes kinds text` : the text spells tokens of the kinds, wherever it stands;
* `Derivation.writes` : the text of a derivation writes its tokens, if all of them can be spelled;
* `Derivation.parse_text`, `Derivation.parse_text_error` : so the text is parsed to the meaning of
  the derivation, unless it nests too deeply;
* `isRepresentable_of_parse` : whatever is parsed has a text.
-/

namespace MicroFrontends

/-! ## Texts that write tokens -/

/-- The text spells tokens of these kinds, at whatever offset it begins. -/
def Writes (kinds : List TokenKind) (text : List Char) : Prop :=
  ∀ offset, ∃ tokens, Spelled offset text tokens ∧ kindsOf tokens = kinds ++ [.endOfInput]

theorem Spelled.cons_blank {offset : Nat} {c : Char} {text : List Char} {tokens : List Token}
    (hc : isBlank c = true) (h : Spelled (offset + c.utf8Size) text tokens) :
    Spelled offset (c :: text) tokens := by
  have hcons {blanks : List Char} (hb : ∀ a ∈ blanks, isBlank a = true) :
      ∀ a ∈ c :: blanks, isBlank a = true := List.forall_mem_cons.mpr ⟨hc, hb⟩
  have hlen (blanks : List Char) : offset + c.utf8Size + Text.byteLength blanks =
      offset + Text.byteLength (c :: blanks) := Nat.add_assoc _ _ _
  cases h with
  | finish hb =>
    rw [hlen]
    exact .finish (hcons hb)
  | token hb hstart hk hstop he h =>
    rw [hlen] at hstart
    exact .token (hcons hb) hstart hk hstop he h

namespace Writes

theorem nil : Writes [] [] :=
  fun offset => ⟨[.endAt (offset + Text.byteLength [])], .finish (by simp), rfl⟩

variable {k : TokenKind} {kinds : List TokenKind} {text : List Char}

theorem cons (hk : k.Spellable) (he : k.EndsBefore text) (h : Writes kinds text) :
    Writes (k :: kinds) (k.spelling ++ text) := by
  intro offset
  obtain ⟨tokens, hs, ht⟩ := h (offset + Text.byteLength [] + Text.byteLength k.spelling)
  have hb : ∀ c ∈ ([] : List Char), isBlank c = true := by simp
  exact ⟨_, .token hb rfl hk rfl he hs, congrArg (k :: ·) ht⟩

theorem blank (h : Writes kinds text) : Writes kinds (' ' :: text) := by
  intro offset
  obtain ⟨tokens, hs, ht⟩ := h (offset + ' '.utf8Size)
  exact ⟨tokens, hs.cons_blank rfl, ht⟩

/-- The lexer finds the tokens that a text writes. -/
theorem exists_tokenize (h : Writes kinds text) :
    ∃ tokens, tokenize (String.ofList text) = .ok tokens ∧
      kindsOf tokens = kinds ++ [.endOfInput] := by
  obtain ⟨tokens, hs, hk⟩ := h 0
  refine ⟨tokens, ?_, hk⟩
  rw [tokenize, Lexer.ofText, String.toList_ofList]
  exact hs.tokens_eq_ok

end Writes

/-! ## Derivations as text -/

theorem comparisonSign_endsBefore (negated : Bool) (text : List Char) :
    (comparisonSign negated).EndsBefore text := by
  cases negated <;> exact trivial

theorem label_endsBefore_comparisonSign (label : String) (negated : Bool) (text : List Char) :
    (TokenKind.label label).EndsBefore ((comparisonSign negated).spelling ++ text) := by
  intro c hc
  cases negated <;> obtain rfl := Option.some.inj hc <;> rfl

namespace Derivation

/-- The tokens of a derivation with a blank on each side of the operators of chains. -/
def text : {n : Nonterminal} → Derivation n → List Char
  | _, chain first others => first.text ++ others.text
  | _, done => []
  | .rest op, more next others =>
    ' ' :: (op.token.spelling ++ ' ' :: (next.text ++ others.text))
  | _, conjunction operands => operands.text
  | _, primary inner => inner.text
  | _, not arg => '!' :: arg.text
  | _, group body => '(' :: (body.text ++ [')'])
  | _, present label => label.toList
  | _, compare label negated value =>
    label.toList ++ ((comparisonSign negated).spelling ++ value.token.spelling)

/-- Every token of the derivation can be spelled. -/
def Spellable {n : Nonterminal} (d : Derivation n) : Prop := ∀ k ∈ d.kinds, k.Spellable

section
variable {op : Connective}

theorem spellable_token (op : Connective) : op.token.Spellable := by
  cases op <;> exact trivial

theorem spellable_comparisonSign (negated : Bool) : (comparisonSign negated).Spellable := by
  cases negated <;> exact trivial

@[simp] theorem spellable_chain {first : Derivation (.operand op)} {others : Derivation (.rest op)} :
    (chain first others).Spellable ↔ first.Spellable ∧ others.Spellable := List.forall_mem_append

@[simp] theorem spellable_done : (done : Derivation (.rest op)).Spellable := fun _ hk => nomatch hk

@[simp] theorem spellable_more {next : Derivation (.operand op)} {others : Derivation (.rest op)} :
    (more next others).Spellable ↔ next.Spellable ∧ others.Spellable := by
  rw [Spellable, kinds, List.forall_mem_cons, List.forall_mem_append]
  exact and_iff_right (spellable_token op)

@[simp] theorem spellable_conjunction {operands : Derivation (.chain .and)} :
    (conjunction operands).Spellable ↔ operands.Spellable := Iff.rfl

@[simp] theorem spellable_primary {inner : Derivation .primary} :
    (primary inner).Spellable ↔ inner.Spellable := Iff.rfl

@[simp] theorem spellable_not {arg : Derivation (.operand .and)} :
    (not arg).Spellable ↔ arg.Spellable := by
  rw [Spellable, kinds, List.forall_mem_cons]
  exact and_iff_right trivial

@[simp] theorem spellable_group {body : Derivation (.chain .or)} :
    (group body).Spellable ↔ body.Spellable := by
  rw [Spellable, kinds, List.forall_mem_cons, List.forall_mem_append, List.forall_mem_singleton]
  exact (and_iff_right trivial).trans (and_iff_left trivial)

@[simp] theorem spellable_present {label : String} :
    (present label).Spellable ↔ isWord label.toList = true := List.forall_mem_singleton

@[simp] theorem spellable_compare {label : String} {negated : Bool} {value : Literal} :
    (compare label negated value).Spellable ↔
      isWord label.toList = true ∧ value.token.Spellable := by
  rw [Spellable, kinds, List.forall_mem_cons, List.forall_mem_cons, List.forall_mem_singleton]
  exact and_congr_right fun _ => and_iff_right (spellable_comparisonSign negated)

end

/-- What comes after the rest of a chain goes on with no word after the chain begins. -/
theorem text_rest_isWordChar {op : Connective} (d : Derivation (.rest op)) {rest : List Char}
    (hr : ∀ c ∈ rest.head?, isWordChar c = false) :
    ∀ c ∈ (d.text ++ rest).head?, isWordChar c = false := by
  cases d with
  | done => exact hr
  | more next others =>
    intro c hc
    obtain rfl := Option.some.inj hc
    rfl

/-- The operand of a negation does not begin with an equals sign. -/
theorem text_ne_equals (d : Derivation (.operand .and)) (hs : d.Spellable) (rest : List Char) :
    ∀ c ∈ (d.text ++ rest).head?, c ≠ '=' := by
  have hlabel {label : String} (hl : isWord label.toList = true) (tail : List Char) :
      ∀ c ∈ (label.toList ++ tail).head?, c ≠ '=' := by
    intro c hc
    cases ht : label.toList with
    | nil => simp [ht, isWord] at hl
    | cons a as =>
      rw [ht] at hl hc
      obtain rfl := Option.some.inj hc
      rintro rfl
      simp [isWord, isWordStart] at hl
  cases d with
  | not arg =>
    intro c hc
    obtain rfl := Option.some.inj hc
    decide
  | primary inner =>
    cases inner with
    | group body =>
      intro c hc
      obtain rfl := Option.some.inj hc
      decide
    | present label => exact hlabel (spellable_present.mp hs) rest
    | compare label negated value =>
      have hl := hlabel (spellable_compare.mp hs).1
        ((comparisonSign negated).spelling ++ value.token.spelling ++ rest)
      simpa only [text, List.append_assoc] using hl

/-- The text of a derivation writes its tokens, if it is not followed by more of a word. -/
theorem writes {n : Nonterminal} (d : Derivation n) {kinds : List TokenKind} {rest : List Char}
    (hs : d.Spellable) (hr : ∀ c ∈ rest.head?, isWordChar c = false) (h : Writes kinds rest) :
    Writes (d.kinds ++ kinds) (d.text ++ rest) := by
  induction d generalizing kinds rest with
  | chain first others ihfirst ihothers =>
    -- the rest is written before the first operand, whose last word it must not go on with
    obtain ⟨hfirst, hothers⟩ := spellable_chain.mp hs
    simp only [Derivation.kinds, text, List.append_assoc]
    exact ihfirst hfirst (others.text_rest_isWordChar hr) (ihothers hothers hr h)
  | done => exact h
  | @more op next others ihnext ihothers =>
    obtain ⟨hnext, hothers⟩ := spellable_more.mp hs
    have hnext := ihnext hnext (others.text_rest_isWordChar hr) (ihothers hothers hr h)
    have hends : op.token.EndsBefore (' ' :: (next.text ++ (others.text ++ rest))) := by
      cases op <;> exact trivial
    have hmore := (Writes.cons (spellable_token op) hends hnext.blank).blank
    simp only [Derivation.kinds, text, List.cons_append, List.append_assoc]
    exact hmore
  | conjunction operands ih => exact ih hs hr h
  | primary inner ih => exact ih hs hr h
  | not arg ih =>
    have harg := spellable_not.mp hs
    exact Writes.cons (k := .not) trivial (arg.text_ne_equals harg rest) (ih harg hr h)
  | group body ih =>
    have hclose : Writes (.rparen :: kinds) (TokenKind.rparen.spelling ++ rest) :=
      .cons trivial trivial h
    have hparen : ∀ c ∈ (TokenKind.rparen.spelling ++ rest).head?, isWordChar c = false := by
      intro c hc
      obtain rfl := Option.some.inj hc
      rfl
    have hbody := ih (spellable_group.mp hs) hparen hclose
    simp only [Derivation.kinds, text, List.cons_append, List.append_assoc]
    exact Writes.cons (k := .lparen) trivial trivial hbody
  | present label => exact Writes.cons (k := .label label) (spellable_present.mp hs) hr h
  | compare label negated value =>
    obtain ⟨hlabel, hvalue⟩ := spellable_compare.mp hs
    have hends : value.token.EndsBefore rest := by
      cases value with
      | word text => exact hr
      | quoted text => exact trivial
    have hsign := Writes.cons (spellable_comparisonSign negated)
      (comparisonSign_endsBefore negated _) (Writes.cons hvalue hends h)
    simp only [Derivation.kinds, text, List.append_assoc]
    exact Writes.cons (k := .label label) hlabel (label_endsBefore_comparisonSign label negated _)
      hsign

theorem writes_text {n : Nonterminal} (d : Derivation n) (hs : d.Spellable) :
    Writes d.kinds d.text := by
  have hw := d.writes hs (by simp) Writes.nil
  rwa [List.append_nil, List.append_nil] at hw

/-- The lexer finds the tokens of a derivation in its text. -/
theorem tokenize_text {n : Nonterminal} (d : Derivation n) (hs : d.Spellable) :
    ∃ tokens, tokenize (String.ofList d.text) = .ok tokens ∧ d.kinds = beforeEnd tokens := by
  obtain ⟨tokens, ht, hk⟩ := (d.writes_text hs).exists_tokenize
  exact ⟨tokens, ht, (d.beforeEnd_of_kindsOf hk).symm⟩

theorem exists_parse_text {n : Nonterminal} (d : Derivation n) (hs : d.Spellable) :
    ∃ tokens, d.kinds = beforeEnd tokens ∧
      Expr.parse (String.ofList d.text) = (parseTokens tokens).mapError .syntactic := by
  obtain ⟨tokens, ht, hk⟩ := d.tokenize_text hs
  refine ⟨tokens, hk, ?_⟩
  rw [Expr.parse, ht]
  rfl

theorem parse_text (d : Derivation (.chain .or)) (hs : d.Spellable) (hn : d.nesting ≤ maxDepth) :
    Expr.parse (String.ofList d.text) = .ok d.lower := by
  obtain ⟨tokens, hk, hp⟩ := d.exists_parse_text hs
  rw [hp, d.parseTokens_eq_ok hk hn]
  rfl

/-- The text of a derivation is refused if it nests too deeply, and for no other reason. -/
theorem parse_text_error (d : Derivation (.chain .or)) (hs : d.Spellable)
    (hn : maxDepth < d.nesting) : ∃ found position,
      Expr.parse (String.ofList d.text) = .error (.syntactic ⟨.shallowerNesting, found, position⟩) := by
  obtain ⟨tokens, hk, hp⟩ := d.exists_parse_text hs
  obtain ⟨found, position, he⟩ := d.parseTokens_eq_error hk hn
  refine ⟨found, position, ?_⟩
  rw [hp, he]
  rfl

end Derivation

/-! ## What is parsed has a text -/

theorem Connective.isRepresentable_join (op : Connective) (lhs rhs : Expr) :
    (op.join lhs rhs).isRepresentable = (lhs.isRepresentable && rhs.isRepresentable) := by
  cases op <;> rfl

namespace Derivation

/-- The meaning of a derivation can be written. The rest of a chain leaves an expression so. -/
def IsRepresentable : {n : Nonterminal} → Derivation n → Prop
  | .rest _, d => ∀ lhs : Expr, lhs.isRepresentable = true → (d.lower lhs).isRepresentable = true
  | .chain _, d | .operand _, d | .primary, d => Expr.isRepresentable d.lower = true

theorem isRepresentable_of_spellable {n : Nonterminal} (d : Derivation n) (hs : d.Spellable) :
    d.IsRepresentable := by
  induction d with
  | chain first others ihfirst ihothers =>
    obtain ⟨hfirst, hothers⟩ := spellable_chain.mp hs
    exact ihothers hothers _ (ihfirst hfirst)
  | done => exact fun _ h => h
  | @more op next others ihnext ihothers =>
    obtain ⟨hnext, hothers⟩ := spellable_more.mp hs
    have hn : Expr.isRepresentable next.lower = true := ihnext hnext
    intro lhs hl
    apply ihothers hothers
    rw [op.isRepresentable_join, hl, hn]
    rfl
  | conjunction operands ih => exact ih hs
  | primary inner ih => exact ih hs
  | not arg ih => exact ih (spellable_not.mp hs)
  | group body ih => exact ih (spellable_group.mp hs)
  | present label => exact (isPlain_eq_isWord label).trans (spellable_present.mp hs)
  | compare label negated value =>
    obtain ⟨hlabel, hvalue⟩ := spellable_compare.mp hs
    have hquote : '"' ∉ value.text.toList := by
      cases value with
      | word text => exact quote_notMem_of_isWord hvalue
      | quoted text => exact hvalue
    have he : (Expr.equals label value.text).isRepresentable = true := by
      simp [Expr.isRepresentable, isPlain_eq_isWord, hlabel, hquote]
    cases negated <;> exact he

end Derivation

theorem derivation_of_parse {source : String} {e : Expr} (h : Expr.parse source = .ok e) :
    ∃ d : Derivation (.chain .or), d.Spellable ∧ d.nesting ≤ maxDepth ∧ d.lower = e := by
  obtain ⟨tokens, ht, hp⟩ := Except.bind_eq_ok.mp h
  obtain ⟨d, hk, hn, hd⟩ := derivation_of_parseTokens (Except.mapError_eq_ok.mp hp)
  have hspelled := (Lexer.tokens_eq_ok_iff.mp (Except.mapError_eq_ok.mp ht)).spellable
  refine ⟨d, fun k hkd => ?_, hn, hd⟩
  rw [hk, beforeEnd] at hkd
  have hne : k ≠ .endOfInput := by simpa using List.mem_takeWhile_imp hkd
  obtain ⟨t, htm, rfl⟩ := List.mem_map.mp ((List.takeWhile_sublist _).mem hkd)
  exact hspelled t htm hne

/-- Parsed expressions can be written. -/
theorem isRepresentable_of_parse {source : String} {e : Expr} (h : Expr.parse source = .ok e) :
    e.isRepresentable = true := by
  obtain ⟨d, hs, -, rfl⟩ := derivation_of_parse h
  exact d.isRepresentable_of_spellable hs

end MicroFrontends
