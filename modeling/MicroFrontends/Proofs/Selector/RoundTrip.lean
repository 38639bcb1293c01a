import MicroFrontends.Proofs.Selector.Canonical
import MicroFrontends.Selector.Basic

/-!
# Printing and parsing again

The canonical text of an expression that can be written is the text of a derivation that stands for
the expression, so it is parsed to that expression unless it nests too deeply. It may do so even if
the expression has been parsed: the canonical text leaves out parentheses around the first operands
of a chain, and each operator that is then no longer within them puts the operands after it one
level deeper.

* `parse_render` : which expressions the parser gives back;
* `Derivation.parse_selector` : the text of a derivation as a selector;
* `parse_render_of_parse` : which parsed selectors the parser gives back;
* `parse_render_ne` : a parsed selector that is not among them.
-/

namespace MicroFrontends

namespace Expr

/-- The canonical derivation of a whole expression. -/
def derivation (e : Expr) : Derivation (.chain .or) := e.forms.or

theorem prints_derivation (e : Expr) : e.derivation.Prints e false := by
  have hg : e.groupedLeft .or = false := by cases e <;> rfl
  exact hg ▸ e.print_forms.or

theorem ofList_text_derivation (e : Expr) : String.ofList e.derivation.text = e.render := by
  rw [e.prints_derivation.text_eq]
  exact String.ofList_toList

theorem nesting_derivation (e : Expr) : e.derivation.nesting = e.nesting :=
  e.prints_derivation.nesting_eq

variable {e : Expr}

theorem parse_render_eq_ok (he : e.isRepresentable = true) (hn : e.nesting ≤ maxDepth) :
    Expr.parse e.render = .ok e := by
  have hd : e.derivation.lower = e := e.prints_derivation.denotes
  have hs := e.prints_derivation.spellable he
  rw [← ofList_text_derivation, e.derivation.parse_text hs (nesting_derivation e ▸ hn), hd]

theorem parse_render_eq_error (he : e.isRepresentable = true) (hn : maxDepth < e.nesting) :
    ∃ found position,
      Expr.parse e.render = .error (.syntactic ⟨.shallowerNesting, found, position⟩) := by
  have hs := e.prints_derivation.spellable he
  rw [← ofList_text_derivation]
  exact e.derivation.parse_text_error hs (nesting_derivation e ▸ hn)

end Expr

/-- The canonical text is parsed to the expression itself exactly if the expression can be written
and its text nests at most `maxDepth` levels deep. A deeper nesting is the only reason why the text
of an expression that can be written is refused, and it is never parsed to another expression. -/
theorem parse_render (e : Expr) :
    (Expr.parse e.render = .ok e ↔ e.isRepresentable = true ∧ e.nesting ≤ maxDepth) ∧
      (e.isRepresentable = true → maxDepth < e.nesting → ∃ found position,
        Expr.parse e.render = .error (.syntactic ⟨.shallowerNesting, found, position⟩)) := by
  refine ⟨⟨fun h => ?_, fun h => Expr.parse_render_eq_ok h.1 h.2⟩, Expr.parse_render_eq_error⟩
  have he := isRepresentable_of_parse h
  refine ⟨he, Nat.le_of_not_lt fun hn => ?_⟩
  obtain ⟨found, position, herr⟩ := Expr.parse_render_eq_error he hn
  rw [herr] at h
  cases h

/-! ## Selectors -/

theorem Spelled.all_isBlank {offset : Nat} {text : List Char} {t : Token} {tokens : List Token}
    (h : Spelled offset text (t :: tokens)) (ht : t.kind ≠ .endOfInput) :
    text.all isBlank = false := by
  cases h with
  | finish hb => exact absurd rfl ht
  | token hb hstart hk hstop he h =>
    obtain ⟨c, cs, hc, hcb⟩ := hk.exists_cons
    simp [hc, hcb]

namespace Derivation

theorem kinds_ne_nil {n : Nonterminal} (d : Derivation n) (hn : ∀ op, n ≠ .rest op) :
    d.kinds ≠ [] := by
  induction d with
  | chain first others ihfirst ihothers =>
    have := ihfirst fun _ h => by cases h
    simp [kinds, this]
  | done => exact absurd rfl (hn _)
  | more next others ihnext ihothers => exact absurd rfl (hn _)
  | conjunction operands ih => exact ih fun _ h => by cases h
  | primary inner ih => exact ih fun _ h => by cases h
  | _ => exact List.cons_ne_nil _ _

theorem text_all_isBlank (d : Derivation (.chain .or)) (hs : d.Spellable) :
    d.text.all isBlank = false := by
  obtain ⟨tokens, hspelled, hk⟩ := d.writes_text hs 0
  obtain ⟨k, kinds, hd⟩ := List.exists_cons_of_ne_nil (d.kinds_ne_nil fun _ h => nomatch h)
  rw [hd] at hk
  obtain ⟨span, rest, rfl, -⟩ := kindsOf_eq_cons hk
  refine hspelled.all_isBlank fun he => d.endOfInput_notMem_kinds ?_
  rw [hd, ← he]
  exact List.mem_cons_self

/-- The text of a derivation is not blank, so it is an expression as a selector. -/
theorem parse_selector (d : Derivation (.chain .or)) (hs : d.Spellable) :
    Selector.parse (String.ofList d.text) =
      (Expr.parse (String.ofList d.text)).map (⟨some ·⟩) := by
  rw [Selector.parse_eq, String.toList_ofList, d.text_all_isBlank hs]
  rfl

theorem parse_selector_eq_ok (d : Derivation (.chain .or)) (hs : d.Spellable)
    (hn : d.nesting ≤ maxDepth) :
    Selector.parse (String.ofList d.text) = .ok ⟨some d.lower⟩ := by
  rw [d.parse_selector hs, d.parse_text hs hn]
  rfl

end Derivation

theorem Expr.parse_selector {e : Expr} (he : e.isRepresentable = true) :
    Selector.parse e.render = (Expr.parse e.render).map (⟨some ·⟩) := by
  rw [← ofList_text_derivation]
  exact e.derivation.parse_selector (e.prints_derivation.spellable he)

/-- The expression of a parsed selector can be written. -/
theorem isRepresentable_of_parse_selector {source : String} {s : Selector}
    (h : Selector.parse source = .ok s) : ∀ e ∈ s.expr?, e.isRepresentable = true := by
  unfold Selector.parse at h
  split at h
  · cases h
    exact fun _ he => nomatch he
  · obtain ⟨e, hp, rfl⟩ := Except.map_eq_ok.mp h
    intro e' he
    obtain rfl := Option.some.inj he
    exact isRepresentable_of_parse hp

namespace Selector

variable {s : Selector}

theorem parse_render_eq_ok (hr : ∀ e ∈ s.expr?, e.isRepresentable = true)
    (hn : ∀ e ∈ s.expr?, e.nesting ≤ maxDepth) : parse s.render = .ok s := by
  rcases s with ⟨_ | e⟩
  · rfl
  · have he : e.isRepresentable = true := hr e rfl
    show parse e.render = _
    rw [Expr.parse_selector he, Expr.parse_render_eq_ok he (hn e rfl)]
    rfl

theorem parse_render_eq_error {e : Expr} (hs : e ∈ s.expr?) (he : e.isRepresentable = true)
    (hn : maxDepth < e.nesting) : ∃ found position,
      parse s.render = .error (.syntactic ⟨.shallowerNesting, found, position⟩) := by
  obtain rfl : s = ⟨some e⟩ := congrArg Selector.mk hs
  obtain ⟨found, position, hp⟩ := Expr.parse_render_eq_error he hn
  refine ⟨found, position, ?_⟩
  show parse e.render = _
  rw [Expr.parse_selector he, hp]
  rfl

end Selector

/-! ## A group whose parentheses are left out -/

namespace Derivation

section
variable {op : Connective}

theorem operandCount_lower : ∀ (d : Derivation (.rest op)) (lhs : Expr),
    (d.lower lhs).operandCount op = lhs.operandCount op + d.operators
  | done, _ => rfl
  | more next others, lhs => by
    show (others.lower (op.join lhs next.lower)).operandCount op = _
    rw [operandCount_lower others, op.operandCount_join]
    simp only [operators]
    omega

theorem spellable_repeated {operand : Derivation (.operand op)} (h : operand.Spellable)
    (count : Nat) : (repeated operand count).Spellable := by
  induction count with
  | zero => exact spellable_done
  | succ count ih => exact spellable_more.mpr ⟨h, ih⟩

end

theorem spellable_label : label.Spellable := spellable_present.mpr (by decide)

/-- A label and so many more operands in parentheses, and a negation after them. -/
def regrouped (count : Nat) : Derivation (.chain .or) :=
  let body := chain (conjunction (chain label (repeated label count))) done
  chain (conjunction (chain (primary (group body)) (more (not label) done))) done

theorem nesting_regrouped (count : Nat) : (regrouped count).nesting = max (count + 1) 2 := by
  have hl : label.nesting = 0 := rfl
  simp only [regrouped, nesting, nesting_repeated hl]
  omega

theorem spellable_regrouped (count : Nat) : (regrouped count).Spellable := by
  simp [regrouped, spellable_label, spellable_repeated]

/-- Without the parentheses the negation is one level deeper for each operand within them. -/
theorem lt_nesting_lower_regrouped (count : Nat) :
    count + 1 < Expr.nesting (regrouped count).lower := by
  let lhs : Expr := (repeated label count).lower label.lower
  let rhs : Expr := .not label.lower
  have hc : lhs.operandCount .and = 1 + count := by
    rw [operandCount_lower, operators_repeated]
    rfl
  have hn : Expr.levelsIn (rhs.groupedRight .and) rhs.nesting = 1 := rfl
  have he : (regrouped count).lower = Connective.and.join lhs rhs := rfl
  rw [he, Connective.nesting_join, hc]
  show count + 1 < max _ (1 + count + Expr.levelsIn (rhs.groupedRight .and) rhs.nesting)
  rw [hn]
  omega

end Derivation

/-! ## Parsed selectors -/

/-- The canonical text of a parsed selector is parsed to the selector again exactly if it nests at
most `maxDepth` levels deep. Otherwise it is refused for its nesting. -/
theorem parse_render_of_parse {source : String} {s : Selector} (h : Selector.parse source = .ok s) :
    (Selector.parse s.render = .ok s ↔ ∀ e ∈ s.expr?, e.nesting ≤ maxDepth) ∧
      ∀ e ∈ s.expr?, maxDepth < e.nesting → ∃ found position,
        Selector.parse s.render = .error (.syntactic ⟨.shallowerNesting, found, position⟩) := by
  have hr := isRepresentable_of_parse_selector h
  have herr (e : Expr) (he : e ∈ s.expr?) (hn : maxDepth < e.nesting) :=
    Selector.parse_render_eq_error he (hr e he) hn
  refine ⟨⟨fun hp e he => ?_, Selector.parse_render_eq_ok hr⟩, herr⟩
  apply Nat.le_of_not_lt
  intro hn
  obtain ⟨found, position, hp'⟩ := herr e he hn
  rw [hp'] at hp
  cases hp

/-- The operands of the group become operands of the chain that it begins. -/
theorem parse_render_regrouped :
    ∃ s, Selector.parse "(a && a) && !a" = .ok s ∧ s.render = "a && a && !a" ∧
      Selector.parse s.render = .ok s := by
  let d := Derivation.regrouped 1
  have hp : Selector.parse "(a && a) && !a" = .ok ⟨some d.lower⟩ :=
    d.parse_selector_eq_ok (Derivation.spellable_regrouped 1) (by decide)
  refine ⟨⟨some d.lower⟩, hp, rfl, (parse_render_of_parse hp).1.mpr ?_⟩
  intro e he
  obtain rfl := Option.some.inj he
  decide

/-- A group of 256 operands fits, and without its parentheses the negation after them does not. -/
theorem parse_render_ne :
    ¬ ∀ source s, Selector.parse source = .ok s → Selector.parse s.render = .ok s := by
  intro h
  let d := Derivation.regrouped 255
  have hs : d.Spellable := Derivation.spellable_regrouped 255
  have hd : d.nesting ≤ maxDepth := Nat.le_of_eq (Derivation.nesting_regrouped 255)
  have hn : maxDepth < Expr.nesting d.lower := Derivation.lt_nesting_lower_regrouped 255
  have he : Expr.isRepresentable d.lower = true := d.isRepresentable_of_spellable hs
  let s : Selector := ⟨some d.lower⟩
  obtain ⟨found, position, herr⟩ := s.parse_render_eq_error rfl he hn
  have hok := h _ s (d.parse_selector_eq_ok hs hd)
  rw [herr] at hok
  cases hok

end MicroFrontends
