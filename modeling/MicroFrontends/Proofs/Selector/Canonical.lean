import MicroFrontends.Proofs.Selector.Text

/-!
# The canonical text of an expression as a derivation

* `Expr.nesting` : the deepest level in the canonical text, by recursion on the expression;
* `Derivation.snoc` : a chain with one more operand at its end;
* `Expr.forms` : the canonical derivations of an expression as operand of `!` and `&&`, as operand
  of `||` and as a whole, with parentheses where the expression would not be read otherwise;
* `Derivation.Prints` : a derivation is the canonical one of an expression: it stands for it, its
  text is the canonical one, nests as the expression says, and can be spelled if the expression can
  be written;
* `Expr.print_forms` : the forms of an expression are its canonical derivations.
-/

namespace MicroFrontends

/-! ## The nesting of the canonical text -/

namespace Expr

/-- The operands that the expression contributes when it is the first operand of a chain: those of
the chain that it is itself, or one. -/
def operandCount : Connective → Expr → Nat
  | .or, or lhs _ => operandCount .or lhs + 1
  | .and, and lhs _ => operandCount .and lhs + 1
  | _, _ => 1

/-- The nesting of a text that stands in parentheses if `grouped`. -/
def levelsIn (grouped : Bool) (nesting : Nat) : Nat := if grouped then nesting + 1 else nesting

/-- The largest level in the canonical text, which is itself at level 0. The operand of a printed
`!` and the inside of a group are one level deeper. The operands of a chain are counted from 0, and
each is as many levels deeper than the chain. -/
def nesting : Expr → Nat
  | present _ | equals _ _ | not (equals _ _) => 0
  | not arg => levelsIn (arg.groupedLeft .unary) arg.nesting + 1
  | and lhs rhs =>
    max (levelsIn (lhs.groupedLeft .and) lhs.nesting)
      (lhs.operandCount .and + levelsIn (rhs.groupedRight .and) rhs.nesting)
  | or lhs rhs =>
    max (levelsIn (lhs.groupedLeft .or) lhs.nesting)
      (lhs.operandCount .or + levelsIn (rhs.groupedRight .or) rhs.nesting)

end Expr

namespace Connective

/-- How tightly an expression with the operator outermost binds. -/
def precedence : Connective → Precedence
  | or => .or
  | and => .and

variable (op : Connective) (lhs rhs : Expr)

theorem operandCount_join :
    (op.join lhs rhs).operandCount op = lhs.operandCount op + 1 := by
  cases op <;> rfl

theorem nesting_join : (op.join lhs rhs).nesting =
    max (Expr.levelsIn (lhs.groupedLeft op.precedence) lhs.nesting)
      (lhs.operandCount op + Expr.levelsIn (rhs.groupedRight op.precedence) rhs.nesting) := by
  cases op <;> rfl

theorem toList_render_join : (op.join lhs rhs).render.toList =
    (parenthesize (lhs.groupedLeft op.precedence) lhs.render).toList ++
      ' ' :: (op.token.spelling ++
        ' ' :: (parenthesize (rhs.groupedRight op.precedence) rhs.render).toList) := by
  cases op <;> simp [join, precedence, Expr.render, token, TokenKind.spelling]

end Connective

/-! ## Chains with one more operand -/

/-- What can be put at the end of a derivation: operands, if it is for a chain. -/
abbrev Nonterminal.Last : Nonterminal → Type
  | chain op | rest op => Derivation (.operand op)
  | operand _ | primary => Empty

namespace Derivation

/-- The chain with one more operand at its end. -/
def snoc : {n : Nonterminal} → Derivation n → n.Last → Derivation n
  | _, chain first others, last => chain first (others.snoc last)
  | _, done, last => more last done
  | _, more next others, last => more next (others.snoc last)
  | .operand _, _, last | .primary, _, last => nomatch last

section
variable {op : Connective}

/-- The operands of a chain. -/
def operands : Derivation (.chain op) → Nat
  | chain _ others => others.operators + 1

theorem spellable_snocRest : ∀ {d : Derivation (.rest op)} {last : Derivation (.operand op)},
    d.Spellable → last.Spellable → (d.snoc last).Spellable
  | done, _, _, hlast => spellable_more.mpr ⟨hlast, spellable_done⟩
  | more _ _, _, hd, hlast =>
    have hparts := spellable_more.mp hd
    spellable_more.mpr ⟨hparts.1, spellable_snocRest hparts.2 hlast⟩

theorem text_snocRest : ∀ (d : Derivation (.rest op)) (last : Derivation (.operand op)),
    (d.snoc last).text = d.text ++ ' ' :: (op.token.spelling ++ ' ' :: last.text)
  | done, last => by simp only [snoc, text, List.append_nil, List.nil_append]
  | more next others, last => by
    simp only [snoc, text, text_snocRest others last, List.cons_append, List.append_assoc]

theorem lower_snocRest : ∀ (d : Derivation (.rest op)) (last : Derivation (.operand op))
    (lhs : Expr), (d.snoc last).lower lhs = op.join (d.lower lhs) last.lower
  | done, _, _ => rfl
  | more next others, last, lhs => lower_snocRest others last (op.join lhs next.lower)

theorem operators_snocRest : ∀ (d : Derivation (.rest op)) (last : Derivation (.operand op)),
    (d.snoc last).operators = d.operators + 1
  | done, _ => rfl
  | more _ others, last => congrArg (· + 1) (operators_snocRest others last)

theorem nesting_snocRest : ∀ (d : Derivation (.rest op)) (last : Derivation (.operand op)),
    (d.snoc last).nesting = max d.nesting (d.operators + 1 + last.nesting)
  | done, last => by
    simp only [snoc, nesting, operators]
    omega
  | more next others, last => by
    simp only [snoc, nesting, operators, nesting_snocRest others last]
    omega

theorem spellable_snoc {d : Derivation (.chain op)} {last : Derivation (.operand op)}
    (hd : d.Spellable) (hlast : last.Spellable) : (d.snoc last).Spellable := by
  cases d with
  | chain first others =>
    obtain ⟨hfirst, hothers⟩ := spellable_chain.mp hd
    exact spellable_chain.mpr ⟨hfirst, spellable_snocRest hothers hlast⟩

theorem text_snoc (d : Derivation (.chain op)) (last : Derivation (.operand op)) :
    (d.snoc last).text = d.text ++ ' ' :: (op.token.spelling ++ ' ' :: last.text) := by
  cases d with
  | chain first others =>
    simp only [snoc, text, text_snocRest, List.append_assoc]

theorem lower_snoc (d : Derivation (.chain op)) (last : Derivation (.operand op)) :
    (d.snoc last).lower = op.join d.lower last.lower := by
  cases d with
  | chain first others => exact lower_snocRest others last first.lower

theorem operands_snoc (d : Derivation (.chain op)) (last : Derivation (.operand op)) :
    (d.snoc last).operands = d.operands + 1 := by
  cases d with
  | chain first others => exact congrArg (· + 1) (operators_snocRest others last)

theorem nesting_snoc (d : Derivation (.chain op)) (last : Derivation (.operand op)) :
    (d.snoc last).nesting = max d.nesting (d.operands + last.nesting) := by
  cases d with
  | chain first others =>
    simp only [snoc, nesting, operands, nesting_snocRest]
    omega

end

end Derivation

/-! ## Canonical derivations -/

namespace Literal

/-- The value as it is printed: a word if it is one. -/
def ofValue (value : String) : Literal :=
  if isWord value.toList then .word value else .quoted value

variable (value : String)

theorem text_ofValue : (ofValue value).text = value := by
  unfold ofValue
  split <;> rfl

theorem spelling_ofValue : (ofValue value).token.spelling = (renderValue value).toList := by
  unfold ofValue renderValue
  rw [isPlain_eq_isWord]
  split <;> simp [token, TokenKind.spelling]

theorem spellable_ofValue (h : '"' ∉ value.toList) : (ofValue value).token.Spellable := by
  unfold ofValue
  split
  · assumption
  · exact h

end Literal

namespace Derivation

/-- The derivation stands for the expression. -/
def Denotes : {n : Nonterminal} → Derivation n → Expr → Prop
  | .rest _, _, _ => False
  | .chain _, d, e | .operand _, d, e | .primary, d, e => d.lower = e

/-- The derivation is the canonical text of the expression, in parentheses if `grouped`. -/
structure Prints {n : Nonterminal} (d : Derivation n) (e : Expr) (grouped : Bool) : Prop where
  denotes : d.Denotes e
  text_eq : d.text = (parenthesize grouped e.render).toList
  nesting_eq : d.nesting = Expr.levelsIn grouped e.nesting
  spellable : e.isRepresentable = true → d.Spellable

namespace Prints

variable {e : Expr} {grouped : Bool}

theorem ofPrimary {d : Derivation .primary} (h : d.Prints e grouped) :
    (primary d).Prints e grouped := ⟨h.1, h.2, h.3, h.4⟩

theorem ofConjunction {d : Derivation (.chain .and)} (h : d.Prints e grouped) :
    (conjunction d).Prints e grouped := ⟨h.1, h.2, h.3, h.4⟩

/-- A chain of one operand. -/
theorem ofOperand {op : Connective} {d : Derivation (.operand op)} (h : d.Prints e grouped) :
    (chain d done).Prints e grouped := by
  refine ⟨h.1, ?_, ?_, ?_⟩
  · rw [text, text, List.append_nil, h.text_eq]
  · rw [nesting, nesting, Nat.max_zero, h.nesting_eq]
  · intro he
    exact spellable_chain.mpr ⟨h.spellable he, spellable_done⟩

theorem ofGroup {d : Derivation (.chain .or)} (h : d.Prints e false) :
    (group d).Prints e true := by
  refine ⟨h.1, ?_, ?_, ?_⟩
  · simp [text, h.text_eq, parenthesize]
  · rw [nesting, h.nesting_eq]
    rfl
  · intro he
    exact spellable_group.mpr (h.spellable he)

theorem ofNot {d : Derivation (.operand .and)} (h : d.Prints e (e.groupedLeft .unary))
    (he : ∀ label value, e ≠ .equals label value) : (not d).Prints (.not e) false := by
  have hd : d.lower = e := h.denotes
  refine ⟨congrArg Expr.not hd, ?_, ?_, ?_⟩
  · rw [text, h.text_eq, Expr.render.eq_4 e he]
    simp [parenthesize]
  · rw [nesting, h.nesting_eq, Expr.nesting.eq_4 e he]
    rfl
  · intro hr
    exact spellable_not.mpr (h.spellable hr)

theorem ofSnoc {op : Connective} {d : Derivation (.chain op)} {last : Derivation (.operand op)}
    {lhs rhs : Expr} (hd : d.Prints lhs (lhs.groupedLeft op.precedence))
    (hlast : last.Prints rhs (rhs.groupedRight op.precedence))
    (hcount : d.operands = lhs.operandCount op) : (d.snoc last).Prints (op.join lhs rhs) false := by
  have hl : d.lower = lhs := hd.denotes
  have hr : last.lower = rhs := hlast.denotes
  refine ⟨?_, ?_, ?_, ?_⟩
  · subst hl hr
    exact d.lower_snoc last
  · rw [text_snoc, hd.text_eq, hlast.text_eq]
    exact (op.toList_render_join lhs rhs).symm
  · rw [nesting_snoc, hd.nesting_eq, hlast.nesting_eq, hcount]
    exact (op.nesting_join lhs rhs).symm
  · intro he
    rw [op.isRepresentable_join, Bool.and_eq_true] at he
    exact spellable_snoc (hd.spellable he.1) (hlast.spellable he.2)

theorem ofPresent (label : String) : (present label).Prints (.present label) false := by
  refine ⟨rfl, rfl, rfl, fun he => spellable_present.mpr ?_⟩
  exact (isPlain_eq_isWord label).symm.trans he

theorem ofComparison (label : String) (negated : Bool) (value : String) :
    (compare label negated (.ofValue value)).Prints (comparisonExpr label negated value) false := by
  refine ⟨congrArg (comparisonExpr label negated) (Literal.text_ofValue value), ?_, ?_, ?_⟩
  · rw [text, Literal.spelling_ofValue]
    cases negated <;>
      simp [comparisonSign, TokenKind.spelling, comparisonExpr, parenthesize, Expr.render]
  · cases negated <;> rfl
  · intro he
    have hr : (Expr.equals label value).isRepresentable = true := by
      cases negated <;> exact he
    simp only [Expr.isRepresentable, isPlain_eq_isWord, Bool.and_eq_true, Bool.not_eq_true',
      List.contains_eq_mem, decide_eq_false_iff_not] at hr
    exact spellable_compare.mpr ⟨hr.1, Literal.spellable_ofValue value hr.2⟩

end Prints

end Derivation

/-- The canonical text of an expression as what it can be a part of. -/
structure Forms where
  /-- As the operand of a negation or of `&&`, in parentheses if it is a chain. -/
  unary : Derivation (.operand .and)
  /-- As the first operands of a chain of `&&`, in parentheses if it is a chain of `||`. -/
  and : Derivation (.chain .and)
  /-- As a whole. -/
  or : Derivation (.chain .or)

namespace Forms

/-- The forms of an expression that is no chain. -/
def ofUnary (d : Derivation (.operand .and)) : Forms :=
  ⟨d, .chain d .done, .chain (.conjunction (.chain d .done)) .done⟩

/-- The forms of a chain of `&&`. -/
def ofAnd (d : Derivation (.chain .and)) : Forms :=
  ⟨.primary (.group (.chain (.conjunction d) .done)), d, .chain (.conjunction d) .done⟩

/-- The forms of a chain of `||`. -/
def ofOr (d : Derivation (.chain .or)) : Forms :=
  ⟨.primary (.group d), .chain (.primary (.group d)) .done, d⟩

/-- The forms are those of the expression. -/
structure Print (f : Forms) (e : Expr) : Prop where
  unary : f.unary.Prints e (e.groupedLeft .unary)
  and : f.and.Prints e (e.groupedLeft .and)
  or : f.or.Prints e (e.groupedLeft .or)
  operands_and : f.and.operands = e.operandCount .and
  operands_or : f.or.operands = e.operandCount .or

section
variable {e : Expr}

theorem operandCount_eq_one {op : Connective} (h : e.precedence ≠ op.precedence) :
    e.operandCount op = 1 := by
  cases op <;> cases e <;> first | rfl | exact absurd rfl h

theorem print_ofUnary {d : Derivation (.operand .and)} (h : d.Prints e false)
    (he : e.precedence = .unary) : (ofUnary d).Print e := by
  have hg (parent : Precedence) : e.groupedLeft parent = false := by
    cases parent <;> simp [Expr.groupedLeft, he, Precedence.rank]
  refine ⟨?_, ?_, ?_, ?_, ?_⟩
  · exact (hg .unary).symm ▸ h
  · exact (hg .and).symm ▸ h.ofOperand
  · exact (hg .or).symm ▸ h.ofOperand.ofConjunction.ofOperand
  · exact (operandCount_eq_one (by simp [he, Connective.precedence])).symm
  · exact (operandCount_eq_one (by simp [he, Connective.precedence])).symm

theorem print_ofAnd {d : Derivation (.chain .and)} (h : d.Prints e false)
    (hc : d.operands = e.operandCount .and) (he : e.precedence = .and) : (ofAnd d).Print e := by
  have hg (parent : Precedence) : e.groupedLeft parent = decide (parent = .unary) := by
    cases parent <;> simp [Expr.groupedLeft, he, Precedence.rank]
  have hor := h.ofConjunction.ofOperand
  refine ⟨?_, ?_, ?_, hc, ?_⟩
  · exact (hg .unary).symm ▸ hor.ofGroup.ofPrimary
  · exact (hg .and).symm ▸ h
  · exact (hg .or).symm ▸ hor
  · exact (operandCount_eq_one (by simp [he, Connective.precedence])).symm

theorem print_ofOr {d : Derivation (.chain .or)} (h : d.Prints e false)
    (hc : d.operands = e.operandCount .or) (he : e.precedence = .or) : (ofOr d).Print e := by
  have hg (parent : Precedence) : e.groupedLeft parent = decide (parent ≠ .or) := by
    cases parent <;> simp [Expr.groupedLeft, he, Precedence.rank]
  refine ⟨?_, ?_, ?_, ?_, hc⟩
  · exact (hg .unary).symm ▸ h.ofGroup.ofPrimary
  · exact (hg .and).symm ▸ h.ofGroup.ofPrimary.ofOperand
  · exact (hg .or).symm ▸ h
  · exact (operandCount_eq_one (by simp [he, Connective.precedence])).symm

end

end Forms

namespace Expr

/-- The canonical derivations of an expression. -/
def forms : Expr → Forms
  | present label => .ofUnary (.primary (.present label))
  | equals label value => .ofUnary (.primary (.compare label false (.ofValue value)))
  | not (equals label value) => .ofUnary (.primary (.compare label true (.ofValue value)))
  | not arg => .ofUnary (.not arg.forms.unary)
  | and lhs rhs => .ofAnd (lhs.forms.and.snoc rhs.forms.unary)
  | or lhs rhs => .ofOr (lhs.forms.or.snoc (.conjunction rhs.forms.and))

/-- A right operand is in parentheses if it would be so in the next tighter place. -/
theorem groupedRight_and (e : Expr) : e.groupedRight .and = e.groupedLeft .unary := by
  cases e <;> rfl

theorem groupedRight_or (e : Expr) : e.groupedRight .or = e.groupedLeft .and := by
  cases e <;> rfl

theorem print_forms (e : Expr) : e.forms.Print e := by
  induction e using forms.induct with
  | case1 label => exact Forms.print_ofUnary (Derivation.Prints.ofPresent label).ofPrimary rfl
  | case2 label value =>
    exact Forms.print_ofUnary (Derivation.Prints.ofComparison label false value).ofPrimary rfl
  | case3 label value =>
    exact Forms.print_ofUnary (Derivation.Prints.ofComparison label true value).ofPrimary rfl
  | case4 arg harg ih =>
    rw [forms.eq_4 arg harg]
    exact Forms.print_ofUnary (ih.unary.ofNot harg) rfl
  | case5 lhs rhs ihlhs ihrhs =>
    have hrhs : rhs.forms.unary.Prints rhs (rhs.groupedRight .and) :=
      rhs.groupedRight_and ▸ ihrhs.unary
    refine Forms.print_ofAnd (ihlhs.and.ofSnoc hrhs ihlhs.operands_and) ?_ rfl
    rw [Derivation.operands_snoc, ihlhs.operands_and]
    rfl
  | case6 lhs rhs ihlhs ihrhs =>
    have hrhs : (Derivation.conjunction rhs.forms.and).Prints rhs (rhs.groupedRight .or) :=
      rhs.groupedRight_or ▸ ihrhs.and.ofConjunction
    refine Forms.print_ofOr (ihlhs.or.ofSnoc hrhs ihlhs.operands_or) ?_ rfl
    rw [Derivation.operands_snoc, ihlhs.operands_or]
    rfl

end Expr

end MicroFrontends
