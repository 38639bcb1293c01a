import MicroFrontends.Selector.Parser

/-!
# The grammar of selectors and its derivations

* `Connective`, `Nonterminal` : what the grammar has names for; the two chains of the grammar are
  one rule with the connective as its parameter;
* `Derivation n` : the ways to form token lists by the rules for `n`; `kinds` are the tokens of a
  derivation, `lower` is the expression that it stands for and `nesting` the deepest level in it;
* `Nonterminal.Stops` : tokens that cannot go on with a derivation that ends before them;
* `Derivation.eq_of_kinds_append` : the tokens determine the derivation, and where it ends;
* `Derivation.kinds_injective` : so no token list has two derivations.
-/

namespace MicroFrontends

/-- The operators that chain operands. -/
inductive Connective where
  | or
  | and
deriving DecidableEq, Repr

namespace Connective

/-- The token of the operator. -/
def token : Connective → TokenKind
  | or => .or
  | and => .and

/-- The expression with the operator outermost. -/
def join : Connective → Expr → Expr → Expr
  | or => .or
  | and => .and

end Connective

/-- What the rules of the grammar define. -/
inductive Nonterminal where
  /-- One or more operands with the operator between them: `or` and `and`. -/
  | chain (op : Connective)
  /-- What follows the first operand of a chain: `( '||' and )*` and `( '&&' unary )*`. -/
  | rest (op : Connective)
  /-- An operand of a chain: `and` for the chains of `||`, `unary` for those of `&&`. -/
  | operand (op : Connective)
  | primary
deriving DecidableEq, Repr

/-- A value as it is written after a comparison sign. -/
inductive Literal where
  | word (text : String)
  | quoted (text : String)
deriving DecidableEq, Repr

namespace Literal

def text : Literal → String
  | word text => text
  | quoted text => text

def token : Literal → TokenKind
  | word text => .label text
  | quoted text => .string text

end Literal

/-- The derivations of the grammar, one constructor for each alternative of its rules. -/
inductive Derivation : Nonterminal → Type where
  | chain {op : Connective} (first : Derivation (.operand op)) (others : Derivation (.rest op)) :
      Derivation (.chain op)
  | done {op : Connective} : Derivation (.rest op)
  | more {op : Connective} (next : Derivation (.operand op)) (others : Derivation (.rest op)) :
      Derivation (.rest op)
  | conjunction (operands : Derivation (.chain .and)) : Derivation (.operand .or)
  | primary (inner : Derivation .primary) : Derivation (.operand .and)
  | not (arg : Derivation (.operand .and)) : Derivation (.operand .and)
  | group (body : Derivation (.chain .or)) : Derivation .primary
  | present (label : String) : Derivation .primary
  | compare (label : String) (negated : Bool) (value : Literal) : Derivation .primary
deriving Repr

/-- What a derivation stands for: the rest of a chain adds its operands to an expression. -/
abbrev Nonterminal.Meaning : Nonterminal → Type
  | rest _ => Expr → Expr
  | chain _ | operand _ | primary => Expr

/-- The comparison sign. -/
def comparisonSign (negated : Bool) : TokenKind := if negated then .notEquals else .equals

/-- The expression of a comparison. -/
def comparisonExpr (label : String) (negated : Bool) (value : String) : Expr :=
  if negated then .not (.equals label value) else .equals label value

namespace Derivation

/-- The tokens that a derivation forms. -/
def kinds : {n : Nonterminal} → Derivation n → List TokenKind
  | _, chain first others => first.kinds ++ others.kinds
  | _, done => []
  | .rest op, more next others => op.token :: (next.kinds ++ others.kinds)
  | _, conjunction operands => operands.kinds
  | _, primary inner => inner.kinds
  | _, not arg => .not :: arg.kinds
  | _, group body => .lparen :: (body.kinds ++ [.rparen])
  | _, present label => [.label label]
  | _, compare label negated value => [.label label, comparisonSign negated, value.token]

/-- The meaning of a derivation: chains group to the left. -/
def lower : {n : Nonterminal} → Derivation n → n.Meaning
  | _, chain first others => others.lower first.lower
  | _, done => id
  | .rest op, more next others => fun lhs => others.lower (op.join lhs next.lower)
  | _, conjunction operands => operands.lower
  | _, primary inner => inner.lower
  | _, not arg => .not arg.lower
  | _, group body => body.lower
  | _, present label => .present label
  | _, compare label negated value => comparisonExpr label negated value.text

/-- The largest level of a part of the derivation, which is itself at level 0. The operand of a
negation and the inside of a group are one level deeper, and each operand of a chain is one level
deeper than the operand before it. -/
def nesting : {n : Nonterminal} → Derivation n → Nat
  | _, chain first others => max first.nesting others.nesting
  | _, done => 0
  | _, more next others => max next.nesting others.nesting + 1
  | _, conjunction operands => operands.nesting
  | _, primary inner => inner.nesting
  | _, not arg => arg.nesting + 1
  | _, group body => body.nesting + 1
  | _, present _ => 0
  | _, compare _ _ _ => 0

/-- The number of operators in the rest of a chain. -/
def operators : {n : Nonterminal} → Derivation n → Nat
  | _, more _ others => others.operators + 1
  | _, _ => 0

theorem operators_le_nesting {n : Nonterminal} (d : Derivation n) : d.operators ≤ d.nesting := by
  induction d with
  | more next others ihnext ihothers =>
    simp only [operators, nesting]
    omega
  | _ => exact Nat.zero_le _

end Derivation

/-! ## Where a derivation ends -/

/-- A token of the kind may go on with a derivation that ends before it. -/
def Nonterminal.continues : Nonterminal → TokenKind → Bool
  | _, .equals | _, .notEquals => true
  | chain _, .and | rest _, .and | operand .or, .and => true
  | chain .or, .or | rest .or, .or => true
  | _, _ => false

/-- The tokens do not go on with a derivation that ends before them. -/
def Nonterminal.Stops (n : Nonterminal) (kinds : List TokenKind) : Prop :=
  ∀ k ∈ kinds.head?, n.continues k = false

namespace Nonterminal

theorem stops_nil (n : Nonterminal) : n.Stops [] := fun _ hk => nomatch hk

theorem stops_cons {n : Nonterminal} {k : TokenKind} {kinds : List TokenKind} :
    n.Stops (k :: kinds) ↔ n.continues k = false := by
  simp [Stops]

/-- What stops a chain stops its rest. -/
theorem stops_rest {op : Connective} {kinds : List TokenKind} :
    (rest op).Stops kinds ↔ (chain op).Stops kinds := by
  have h : (rest op).continues = (chain op).continues := by
    funext k
    cases op <;> cases k <;> rfl
  rw [Stops, Stops, h]

/-- What stops a chain of `&&` stops an operand of `||`, and conversely. -/
theorem stops_conjunction {kinds : List TokenKind} :
    (operand .or).Stops kinds ↔ (chain .and).Stops kinds := by
  have h : (operand .or).continues = (chain .and).continues := by
    funext k
    cases k <;> rfl
  rw [Stops, Stops, h]

/-- Only comparison signs go on with a negation, a group or a comparison. -/
theorem stops_primary {kinds : List TokenKind} :
    primary.Stops kinds ↔ (operand .and).Stops kinds := by
  have h : primary.continues = (operand .and).continues := by
    funext k
    cases k <;> rfl
  rw [Stops, Stops, h]

/-- An operand ends where its chain ends. -/
theorem Stops.operand {op : Connective} {kinds : List TokenKind} (h : (chain op).Stops kinds) :
    (Nonterminal.operand op).Stops kinds := by
  intro k hk
  have hc := h k hk
  cases op <;> cases k <;> first | rfl | exact hc

theorem continues_token (op : Connective) : (chain op).continues op.token = true := by
  cases op <;> rfl

theorem operand_continues_token (op : Connective) : (operand op).continues op.token = false := by
  cases op <;> rfl

end Nonterminal

namespace Derivation

/-- An operand ends where the rest of its chain begins. -/
theorem stops_operand {op : Connective} (others : Derivation (.rest op)) {r : List TokenKind}
    (h : (Nonterminal.chain op).Stops r) : (Nonterminal.operand op).Stops (others.kinds ++ r) := by
  cases others with
  | done => exact h.operand
  | more next others => exact Nonterminal.stops_cons.mpr (Nonterminal.operand_continues_token op)

/-- A group or a comparison begins with no negation. -/
theorem kinds_primary_ne_not (d : Derivation .primary) (r tail : List TokenKind) :
    d.kinds ++ r ≠ .not :: tail := by
  cases d <;> simp [kinds]

/-- The tokens determine the derivation and where it ends, if nothing goes on with it there. -/
theorem eq_of_kinds_append {n : Nonterminal} (d d' : Derivation n) {r r' : List TokenKind}
    (hr : n.Stops r) (hr' : n.Stops r') (h : d.kinds ++ r = d'.kinds ++ r') : d = d' ∧ r = r' := by
  induction d generalizing r r' with
  | @chain op first others ihfirst ihothers =>
    cases d' with
    | chain first' others' =>
      simp only [kinds, List.append_assoc] at h
      obtain ⟨rfl, ht⟩ := ihfirst first' (stops_operand others hr) (stops_operand others' hr') h
      obtain ⟨rfl, he⟩ := ihothers others' (Nonterminal.stops_rest.mpr hr)
        (Nonterminal.stops_rest.mpr hr') ht
      exact ⟨rfl, he⟩
  | @done op =>
    cases d' with
    | done => exact ⟨rfl, h⟩
    | more next' others' =>
      -- one chain ends where the other has one more operator, which would go on with the first
      obtain rfl : r = op.token :: (next'.kinds ++ others'.kinds ++ r') := h
      have := Nonterminal.stops_cons.mp (Nonterminal.stops_rest.mp hr)
      simp [Nonterminal.continues_token] at this
  | @more op next others ihnext ihothers =>
    cases d' with
    | done =>
      obtain rfl : op.token :: (next.kinds ++ others.kinds ++ r) = r' := h
      have := Nonterminal.stops_cons.mp (Nonterminal.stops_rest.mp hr')
      simp [Nonterminal.continues_token] at this
    | more next' others' =>
      simp only [kinds, List.cons_append, List.append_assoc, List.cons.injEq, true_and] at h
      obtain ⟨rfl, ht⟩ := ihnext next' (stops_operand others (Nonterminal.stops_rest.mp hr))
        (stops_operand others' (Nonterminal.stops_rest.mp hr')) h
      obtain ⟨rfl, he⟩ := ihothers others' hr hr' ht
      exact ⟨rfl, he⟩
  | conjunction operands ih =>
    cases d' with
    | conjunction operands' =>
      obtain ⟨rfl, he⟩ := ih operands' (Nonterminal.stops_conjunction.mp hr)
        (Nonterminal.stops_conjunction.mp hr') h
      exact ⟨rfl, he⟩
  | primary inner ih =>
    cases d' with
    | primary inner' =>
      obtain ⟨rfl, he⟩ := ih inner' (Nonterminal.stops_primary.mpr hr)
        (Nonterminal.stops_primary.mpr hr') h
      exact ⟨rfl, he⟩
    | not arg' => exact absurd h (kinds_primary_ne_not inner r _)
  | not arg ih =>
    cases d' with
    | primary inner' => exact absurd h.symm (kinds_primary_ne_not inner' r' _)
    | not arg' =>
      simp only [kinds, List.cons_append, List.cons.injEq, true_and] at h
      obtain ⟨rfl, he⟩ := ih arg' hr hr' h
      exact ⟨rfl, he⟩
  | group body ih =>
    cases d' with
    | group body' =>
      simp only [kinds, List.cons_append, List.append_assoc, List.cons.injEq, true_and] at h
      obtain ⟨rfl, ht⟩ := ih body' (Nonterminal.stops_cons.mpr rfl)
        (Nonterminal.stops_cons.mpr rfl) h
      exact ⟨rfl, (List.cons.inj ht).2⟩
    | present label' => simp [kinds] at h
    | compare label' negated' value' => simp [kinds] at h
  | present label =>
    cases d' with
    | group body' => simp [kinds] at h
    | present label' => simpa [kinds] using h
    | compare label' negated' value' =>
      obtain ⟨-, rfl⟩ := List.cons.inj h
      cases negated' <;> exact absurd (Nonterminal.stops_cons.mp hr) (by decide)
  | compare label negated value =>
    cases d' with
    | group body' => simp [kinds] at h
    | present label' =>
      obtain ⟨-, rfl⟩ := List.cons.inj h
      cases negated <;> exact absurd (Nonterminal.stops_cons.mp hr') (by decide)
    | compare label' negated' value' =>
      cases negated <;> cases negated' <;> cases value <;> cases value' <;>
        simp_all [kinds, comparisonSign, Literal.token]

/-- No token list has two derivations. -/
theorem kinds_injective {n : Nonterminal} : Function.Injective (kinds : Derivation n → _) := by
  intro d d' h
  have hs := n.stops_nil
  exact (eq_of_kinds_append d d' hs hs (congrArg (· ++ []) h)).1

/-! ## Chains of one operand -/

/-- The rest of a chain that has the same operand so many times. -/
def repeated {op : Connective} (operand : Derivation (.operand op)) : Nat → Derivation (.rest op)
  | 0 => done
  | count + 1 => more operand (repeated operand count)

/-- A label for an operand. -/
def label : Derivation (.operand .and) := primary (present "a")

section
variable {op : Connective} {operand : Derivation (.operand op)}

theorem operators_repeated (count : Nat) : (repeated operand count).operators = count := by
  induction count with
  | zero => rfl
  | succ count ih => exact congrArg (· + 1) ih

theorem nesting_repeated (h : operand.nesting = 0) (count : Nat) :
    (repeated operand count).nesting = count := by
  induction count with
  | zero => rfl
  | succ count ih =>
    simp only [repeated, nesting]
    omega

end

end Derivation
end MicroFrontends
