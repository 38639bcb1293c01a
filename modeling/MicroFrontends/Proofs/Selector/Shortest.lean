import MicroFrontends.Proofs.Selector.Rejections
import MicroFrontends.Proofs.Selector.RoundTrip

/-!
# The canonical text is the shortest one

Of all ways to write an expression the canonical one has the fewest tokens.

* `Derivation.size` : the number of tokens of a derivation;
* `Expr.chainForm`, `Expr.operandForm` : the canonical derivations by the place in which they stand;
* `Derivation.size_forms_le` : no derivation is shorter than the canonical one of the expression
  that it stands for, by induction on the derivation;
* `Derivation.exists_shorter` : a comparison with `=` after `!` is never the shortest way;
* `tokens_render_le` : so no accepted text has fewer tokens than the canonical text, which has no
  parentheses that could be left out and no `!` that `!=` could replace.
-/

namespace MicroFrontends

namespace Derivation

/-! ## The number of tokens -/

/-- The number of tokens of a derivation. -/
def size {n : Nonterminal} (d : Derivation n) : Nat := d.kinds.length

section
variable {op : Connective}

@[simp] theorem size_chain (first : Derivation (.operand op)) (others : Derivation (.rest op)) :
    (chain first others).size = first.size + others.size := List.length_append

@[simp] theorem size_done : (done : Derivation (.rest op)).size = 0 := rfl

@[simp] theorem size_more (next : Derivation (.operand op)) (others : Derivation (.rest op)) :
    (more next others).size = next.size + others.size + 1 := by
  simp [size, kinds]

@[simp] theorem size_conjunction (operands : Derivation (.chain .and)) :
    (conjunction operands).size = operands.size := rfl

@[simp] theorem size_primary (inner : Derivation .primary) :
    (primary inner).size = inner.size := rfl

@[simp] theorem size_not (arg : Derivation (.operand .and)) : (not arg).size = arg.size + 1 := rfl

@[simp] theorem size_group (body : Derivation (.chain .or)) :
    (group body).size = body.size + 2 := by
  simp [size, kinds]

@[simp] theorem size_present (label : String) : (present label).size = 1 := rfl

@[simp] theorem size_compare (label : String) (negated : Bool) (value : Literal) :
    (compare label negated value).size = 3 := rfl

theorem size_snocRest : ∀ (d : Derivation (.rest op)) (last : Derivation (.operand op)),
    (d.snoc last).size = d.size + last.size + 1
  | done, last => by simp [snoc]
  | more next others, last => by
    simp only [snoc, size_more, size_snocRest others last]
    omega

theorem size_snoc (d : Derivation (.chain op)) (last : Derivation (.operand op)) :
    (d.snoc last).size = d.size + last.size + 1 := by
  cases d with
  | chain first others =>
    simp only [snoc, size_chain, size_snocRest]
    omega

end

end Derivation

/-! ## Canonical derivations by their place -/

namespace Expr

/-- The canonical derivation as the first operands of a chain. -/
def chainForm (e : Expr) : (op : Connective) → Derivation (.chain op)
  | .or => e.forms.or
  | .and => e.forms.and

/-- The canonical derivation as an operand of a chain. -/
def operandForm (e : Expr) : (op : Connective) → Derivation (.operand op)
  | .or => .conjunction e.forms.and
  | .and => e.forms.unary

theorem chainForm_join (op : Connective) (lhs rhs : Expr) :
    (op.join lhs rhs).chainForm op = (lhs.chainForm op).snoc (rhs.operandForm op) := by
  cases op <;> rfl

/-- The tighter the place, the longer the form, and parentheses around the whole are the most that
it takes. -/
theorem size_forms (e : Expr) : e.forms.or.size ≤ e.forms.and.size ∧
    e.forms.and.size ≤ e.forms.unary.size ∧ e.forms.unary.size ≤ e.forms.or.size + 2 := by
  fun_cases forms e with
  | case5 lhs rhs => simp [Forms.ofAnd]
  | case6 lhs rhs => simp [Forms.ofOr]
  | _ => simp [Forms.ofUnary]

theorem size_chainForm_le (e : Expr) (op : Connective) :
    (e.chainForm op).size ≤ (e.operandForm op).size := by
  cases op with
  | or => exact e.size_forms.1
  | and => exact e.size_forms.2.1

/-- A negation takes one more token, or less: a negated comparison has a sign of its own. -/
theorem size_forms_not_le (e : Expr) : (not e).forms.unary.size ≤ e.forms.unary.size + 1 := by
  cases e with
  | equals label value => exact Nat.le_succ 3
  | _ => exact Nat.le_refl _

theorem size_forms_comparison (label : String) (negated : Bool) (value : String) :
    (comparisonExpr label negated value).forms.unary.size = 3 := by
  cases negated <;> rfl

end Expr

/-! ## No derivation is shorter -/

namespace Derivation

/-- The derivation is not shorter than the canonical one of what it stands for. The rest of a chain
adds no fewer tokens than the chain gets longer by. -/
def IsNoShorter : {n : Nonterminal} → Derivation n → Prop
  | .rest op, d => ∀ lhs : Expr, ((d.lower lhs).chainForm op).size ≤ (lhs.chainForm op).size + d.size
  | .chain op, d => (Expr.chainForm d.lower op).size ≤ d.size
  | .operand op, d => (Expr.operandForm d.lower op).size ≤ d.size
  | .primary, d => (Expr.forms d.lower).unary.size ≤ d.size

theorem size_forms_le {n : Nonterminal} (d : Derivation n) : d.IsNoShorter := by
  induction d with
  | @chain op first others ihfirst ihothers =>
    have hfirst : (Expr.operandForm first.lower op).size ≤ first.size := ihfirst
    have hothers := ihothers first.lower
    have hform := Expr.size_chainForm_le first.lower op
    show (Expr.chainForm (others.lower first.lower) op).size ≤ _
    rw [size_chain]
    omega
  | done => exact fun lhs => Nat.le_refl _
  | @more op next others ihnext ihothers =>
    intro lhs
    have hnext : (Expr.operandForm next.lower op).size ≤ next.size := ihnext
    have hothers := ihothers (op.join lhs next.lower)
    rw [Expr.chainForm_join, size_snoc] at hothers
    show (Expr.chainForm (others.lower (op.join lhs next.lower)) op).size ≤ _
    rw [size_more]
    omega
  | conjunction operands ih => exact ih
  | primary inner ih => exact ih
  | not arg ih =>
    have harg : (Expr.forms arg.lower).unary.size ≤ arg.size := ih
    exact Nat.le_trans (Expr.size_forms_not_le arg.lower) (Nat.succ_le_succ harg)
  | group body ih =>
    have hbody : (Expr.forms body.lower).or.size ≤ body.size := ih
    have hform := (Expr.size_forms body.lower).2.2
    show (Expr.forms body.lower).unary.size ≤ _
    rw [size_group]
    omega
  | present label => exact Nat.le_refl 1
  | compare label negated value =>
    exact Nat.le_of_eq (Expr.size_forms_comparison label negated value.text)

/-! ## Comparisons after `!` -/

/-- Tokens that the second of two parts does not go on with stand in one of the parts. -/
theorem exists_append_of_apart {a b before after : List TokenKind} {label : String}
    (hb : ∀ k ∈ b.head?, k ≠ .label label ∧ k ≠ .equals)
    (h : a ++ b = before ++ .not :: .label label :: .equals :: after) :
    (∃ after', a = before ++ .not :: .label label :: .equals :: after') ∨
      ∃ before', b = before' ++ .not :: .label label :: .equals :: after := by
  rcases List.append_eq_append_iff.mp h with ⟨before', -, hb'⟩ | ⟨rest, rfl, hrest⟩
  · exact .inr ⟨before', hb'⟩
  · match rest, hrest with
    | [], hrest => exact .inr ⟨[], hrest.symm⟩
    | [_], hrest =>
      obtain ⟨-, rfl⟩ := List.cons.inj hrest
      exact absurd rfl (hb _ rfl).1
    | [_, _], hrest =>
      obtain ⟨-, hrest⟩ := List.cons.inj hrest
      obtain ⟨-, rfl⟩ := List.cons.inj hrest
      exact absurd rfl (hb _ rfl).2
    | _ :: _ :: _ :: rest, hrest =>
      simp only [List.cons_append, List.cons.injEq] at hrest
      obtain ⟨rfl, rfl, rfl, -⟩ := hrest
      exact .inl ⟨rest, rfl⟩

theorem eq_token_of_mem_head?_kinds {op : Connective} (d : Derivation (.rest op)) :
    ∀ k ∈ d.kinds.head?, k = op.token := by
  intro k hk
  cases d with
  | done => cases hk
  | more next others => exact (Option.some.inj hk).symm

/-- An operand that begins as a comparison with `=` is one. -/
theorem exists_eq_compare {d : Derivation (.operand .and)} {label : String}
    {after : List TokenKind} (h : d.kinds = .label label :: .equals :: after) :
    ∃ value, d = primary (compare label false value) := by
  cases d with
  | not arg => cases h
  | primary inner =>
    cases inner with
    | group body => cases h
    | present label' => cases h
    | compare label' negated value =>
      cases negated with
      | true => cases h
      | false =>
        obtain ⟨hlabel, -⟩ := List.cons.inj h
        cases hlabel
        exact ⟨value, rfl⟩

/-- A comparison with `=` after `!` can be written with fewer tokens, wherever it stands. -/
theorem exists_shorter {n : Nonterminal} (d : Derivation n) {before after : List TokenKind}
    {label : String} (h : d.kinds = before ++ .not :: .label label :: .equals :: after) :
    ∃ d' : Derivation n, d'.lower = d.lower ∧ d'.size < d.size := by
  have hparts {op : Connective} (others : Derivation (.rest op)) :
      ∀ k ∈ others.kinds.head?, k ≠ .label label ∧ k ≠ .equals := by
    intro k hk
    obtain rfl := others.eq_token_of_mem_head?_kinds k hk
    cases op <;> simp [Connective.token]
  induction d generalizing before after with
  | chain first others ihfirst ihothers =>
    rcases exists_append_of_apart (hparts others) h with ⟨after', hfirst⟩ | ⟨before', hothers⟩
    · obtain ⟨d', hlower, hsize⟩ := ihfirst hfirst
      refine ⟨chain d' others, ?_, ?_⟩
      · exact congrArg others.lower hlower
      · simp only [size_chain]
        omega
    · obtain ⟨d', hlower, hsize⟩ := ihothers hothers
      refine ⟨chain first d', ?_, ?_⟩
      · exact congrFun hlower first.lower
      · simp only [size_chain]
        omega
  | done => simp [kinds] at h
  | @more op next others ihnext ihothers =>
    cases before with
    | nil => cases op <;> cases h
    | cons k before =>
      obtain ⟨-, h⟩ := List.cons.inj h
      rcases exists_append_of_apart (hparts others) h with ⟨after', hnext⟩ | ⟨before', hothers⟩
      · obtain ⟨d', hlower, hsize⟩ := ihnext hnext
        refine ⟨more d' others, ?_, ?_⟩
        · funext lhs
          exact congrArg (fun e => others.lower (op.join lhs e)) hlower
        · simp only [size_more]
          omega
      · obtain ⟨d', hlower, hsize⟩ := ihothers hothers
        refine ⟨more next d', ?_, ?_⟩
        · funext lhs
          exact congrFun hlower (op.join lhs next.lower)
        · simp only [size_more]
          omega
  | conjunction operands ih =>
    obtain ⟨d', hlower, hsize⟩ := ih h
    exact ⟨conjunction d', hlower, hsize⟩
  | primary inner ih =>
    obtain ⟨d', hlower, hsize⟩ := ih h
    exact ⟨primary d', hlower, hsize⟩
  | not arg ih =>
    cases before with
    | nil =>
      obtain ⟨-, h⟩ := List.cons.inj h
      obtain ⟨value, rfl⟩ := exists_eq_compare h
      exact ⟨primary (compare label true value), rfl, Nat.lt_succ_self 3⟩
    | cons k before =>
      obtain ⟨-, h⟩ := List.cons.inj h
      obtain ⟨d', hlower, hsize⟩ := ih h
      exact ⟨not d', congrArg Expr.not hlower, Nat.succ_lt_succ hsize⟩
  | group body ih =>
    cases before with
    | nil => cases h
    | cons k before =>
      obtain ⟨-, h⟩ := List.cons.inj h
      have hclose : ∀ k ∈ [TokenKind.rparen].head?, k ≠ .label label ∧ k ≠ .equals := by simp
      rcases exists_append_of_apart hclose h with ⟨after', hbody⟩ | ⟨before', hparen⟩
      · obtain ⟨d', hlower, hsize⟩ := ih hbody
        refine ⟨group d', hlower, ?_⟩
        simp only [size_group]
        omega
      · have hlength := congrArg List.length hparen
        simp at hlength
        omega
  | present label' =>
    have hlength := congrArg List.length h
    simp [kinds] at hlength
    omega
  | compare label' negated value =>
    cases before with
    | nil => cases h
    | cons k before =>
      have hlength := congrArg List.length h
      simp [kinds] at hlength
      omega

end Derivation

/-! ## Texts -/

/-- No text that is read as an expression has fewer tokens than the canonical text of the
expression. Any two parentheses that are left out of the canonical text change what it means, and no
comparison with `=` stands after `!` in it. -/
theorem tokens_render_le {source : String} {e : Expr} (h : Expr.parse source = .ok e) :
    ∃ tokens canonical, tokenize source = .ok tokens ∧ tokenize e.render = .ok canonical ∧
      canonical.length ≤ tokens.length ∧
      (∀ before inside after,
        kindsOf canonical = before ++ .lparen :: (inside ++ .rparen :: after) →
        ∀ d : Derivation (.chain .or), d.kinds ++ [.endOfInput] = before ++ (inside ++ after) →
          d.lower ≠ e) ∧
      ∀ before label after, kindsOf canonical ≠ before ++ .not :: .label label :: .equals :: after := by
  obtain ⟨tokens, ht, hp⟩ := Except.bind_eq_ok.mp h
  have ht := Except.mapError_eq_ok.mp ht
  obtain ⟨d, hd, -, rfl⟩ := derivation_of_parseTokens (Except.mapError_eq_ok.mp hp)
  have hs := (Expr.prints_derivation d.lower).spellable (isRepresentable_of_parse h)
  obtain ⟨canonical, hc, hk⟩ := ((Expr.derivation d.lower).writes_text hs).exists_tokenize
  rw [Expr.ofList_text_derivation] at hc
  have hends : kindsOf tokens = beforeEnd tokens ++ [.endOfInput] := endsOnce_of_tokenize ht
  have hleast (d' : Derivation (.chain .or)) (h' : d'.lower = d.lower) :
      (Expr.derivation d.lower).kinds.length ≤ d'.kinds.length := by
    have hsize : (Expr.derivation d'.lower).size ≤ d'.size := d'.size_forms_le
    rwa [h'] at hsize
  refine ⟨tokens, canonical, ht, hc, ?_, ?_, ?_⟩
  · have hlength := congrArg List.length hk
    have hlength' := congrArg List.length hends
    have := hleast d rfl
    simp only [kindsOf, List.length_map, List.length_append, ← hd] at hlength hlength'
    omega
  · intro before inside after hparens d' hd' hlower
    have hlength := congrArg List.length (hk.symm.trans hparens)
    have hlength' := congrArg List.length hd'
    have := hleast d' hlower
    simp only [List.length_append, List.length_cons] at hlength hlength'
    omega
  · intro before label after hnot
    have hend : ∀ k ∈ [TokenKind.endOfInput].head?, k ≠ .label label ∧ k ≠ .equals := by simp
    rcases Derivation.exists_append_of_apart hend (hk.symm.trans hnot) with
      ⟨after', hkinds⟩ | ⟨before', hsplit⟩
    · obtain ⟨d', hlower, hsize⟩ := (Expr.derivation d.lower).exists_shorter hkinds
      have hcanonical : (Expr.derivation d.lower).lower = d.lower :=
        (Expr.prints_derivation d.lower).denotes
      exact Nat.not_le.mpr hsize (hleast d' (hlower.trans hcanonical))
    · have hlength := congrArg List.length hsplit
      simp at hlength
      omega

/-- All parentheses can be left out, as the comparison has a sign of its own if it is negated. -/
theorem tokens_render_le_grouped :
    let e : Expr := .or (.present "a") (.not (.equals "b" "c"))
    Expr.parse "((a)) || !(b=c)" = .ok e ∧ e.render = "a || b!=c" ∧
      ∃ tokens canonical, tokenize "((a)) || !(b=c)" = .ok tokens ∧
        tokenize "a || b!=c" = .ok canonical ∧ canonical.length ≤ tokens.length := by
  intro e
  let alone (d : Derivation (.operand .and)) : Derivation (.operand .or) :=
    .conjunction (.chain d .done)
  let grouped (d : Derivation .primary) : Derivation .primary :=
    .group (.chain (alone (.primary d)) .done)
  let d : Derivation (.chain .or) :=
    .chain (alone (.primary (grouped (grouped (.present "a")))))
      (.more (alone (.not (.primary (grouped (.compare "b" false (.word "c")))))) .done)
  have hs : d.Spellable := by
    simp [d, alone, grouped, Literal.token, TokenKind.Spellable, isWord]
    decide
  have h : Expr.parse "((a)) || !(b=c)" = .ok e := d.parse_text hs (by decide)
  obtain ⟨tokens, canonical, ht, hc, hle, -⟩ := tokens_render_le h
  exact ⟨h, rfl, tokens, canonical, ht, hc, hle⟩

end MicroFrontends
