import Mathlib.Logic.Function.Iterate
import MicroFrontends.Proofs.Selector.Lookahead

/-!
# The parser's calls, one step after another

The readers of the parser call each other, each with the levels that are left to it. Here the same
calls are the steps of a machine that keeps the activations which wait for another one on a stack and
the nesting level in one counter. All activations share the counter: some count a level up before
they call another one and down when it is back, and those that read chains put the counter back to
what it was at their start.

* `Machine.Routine`, `Machine.Frame`, `Machine.Control`, `Machine` : the functions that call each
  other, an activation that waits, what comes next, and a state as a whole;
* `Machine.step`, `Machine.start`, `Machine.outcome?` : a step, the first state for a token list, and
  the answer of a state that has one;
* `Machine.Gives` : the steps from a state lead to what a reader gives;
* `Nonterminal.followed` : so do they for each reader;
* `Machine.exists_outcome` : the machine comes to the answer of the parser.
-/

namespace MicroFrontends

namespace Machine

/-- The functions of the parser that call each other. -/
inductive Routine where
  /-- Reads a chain: an expression, or an operand of `||`. -/
  | chain (op : Connective)
  /-- Reads an operand of `&&`. -/
  | unary
  /-- Reads a group or a comparison. -/
  | primary
deriving DecidableEq, Repr

/-- What reads an operand of a chain. -/
def Routine.operand : Connective → Routine
  | .or => chain .and
  | .and => unary

/-- What an activation is about to do with the expression that it waits for. -/
inductive Pending where
  /-- It is an operand of a chain, which was at this level at its start and has these operands
  before. -/
  | operand (op : Connective) (level : Nat) (lhs? : Option Expr)
  /-- It is negated. -/
  | negation
  /-- It is an operand of `&&` as it is. -/
  | plain
  /-- It is in a group, whose end comes next. -/
  | group

/-- An activation that waits. `left` counts the tokens that were left when it began or, if it reads
a chain, when its loop last came to an operand. -/
structure Frame where
  pending : Pending
  left : Nat

/-- What comes next. -/
inductive Control where
  /-- An activation begins. -/
  | call (r : Routine)
  /-- An activation is over and gives an expression. -/
  | give (e : Expr)
  | accepted (e : Expr)
  | refused (b : Blame)
  /-- The counter would be counted down below zero. -/
  | underflow

end Machine

/-- The parser in the middle of its work. The innermost one of the waiting activations comes
first. -/
structure Machine where
  tokens : List Token
  depth : Nat
  stack : List Machine.Frame
  control : Machine.Control

namespace Machine

/-- The activation waits for another one. -/
def wait (m : Machine) (p : Pending) (r : Routine) : Machine :=
  { m with stack := ⟨p, m.tokens.length⟩ :: m.stack, control := .call r }

/-- The activation passes the next token, which opens a level, and waits for another one. -/
def descend (m : Machine) (p : Pending) (r : Routine) : Machine where
  tokens := m.tokens.tail
  depth := m.depth + 1
  stack := ⟨p, m.tokens.length⟩ :: m.stack
  control := if maxDepth < m.depth + 1 then .refused ⟨.shallowerNesting, m.tokens⟩ else .call r

/-- The activation is over with what it has read. -/
def settle (m : Machine) : Reading → Machine
  | .ok (e, left) => { m with tokens := left, control := .give e }
  | .error b => { m with control := .refused b }

/-- The same one level up. -/
def ascend (m : Machine) (r : Reading) : Machine :=
  match m.depth with
  | 0 => { m with control := .underflow }
  | depth + 1 => { m with depth }.settle r

/-- The operands of a chain up to the one just read. -/
def joined (op : Connective) (lhs? : Option Expr) (e : Expr) : Expr :=
  (lhs?.map (op.join · e)).getD e

/-- The activation that waited goes on with an expression. -/
def resume (m : Machine) (e : Expr) : Pending → Machine
  | .operand op level lhs? =>
    let e := joined op lhs? e
    if nextKind m.tokens = op.token then m.descend (.operand op level (some e)) (.operand op)
    else { m with depth := level, control := .give e }
  | .negation => m.ascend (.ok (.not e, m.tokens))
  | .plain => { m with control := .give e }
  | .group => m.ascend (closeGroup e m.tokens)

/-- An activation begins. -/
def enter (m : Machine) : Routine → Machine
  | .chain op => m.wait (.operand op m.depth none) (.operand op)
  | .unary =>
    if nextKind m.tokens = .not then m.descend .negation .unary else m.wait .plain .primary
  | .primary =>
    match m.tokens with
    | ⟨.lparen, _⟩ :: _ => m.descend .group (.chain .or)
    | ⟨.label label, _⟩ :: rest => m.settle (parseComparison label rest)
    | tokens => m.settle (.error ⟨.operand, tokens⟩)

/-- An expression is complete that nothing waits for. -/
def finish (m : Machine) (e : Expr) : Machine :=
  match expectEnd m.tokens with
  | .ok () => { m with control := .accepted e }
  | .error b => { m with control := .refused b }

/-- What comes next is done. Where there is an answer, nothing changes any more. -/
def step (m : Machine) : Machine :=
  match m.control with
  | .call r => m.enter r
  | .give e =>
    match m.stack with
    | [] => m.finish e
    | f :: stack => { m with stack }.resume e f.pending
  | .accepted _ | .refused _ | .underflow => m

/-- Before the first token. -/
def start (tokens : List Token) : Machine := ⟨tokens, 0, [], .call (.chain .or)⟩

/-- The answer that was found, for tokens that are over at the offset `stop`. -/
def outcome? (m : Machine) (stop : Nat) : Option (Except SyntaxError Expr) :=
  match m.control with
  | .accepted e => some (.ok e)
  | .refused b => some (.error (b.toSyntaxError stop))
  | _ => none

/-! ## What the steps lead to -/

/-- One state comes some steps after the other. -/
def Reaches (m m' : Machine) : Prop := ∃ n, step^[n] m = m'

theorem Reaches.refl (m : Machine) : m.Reaches m := ⟨0, rfl⟩

theorem Reaches.of_step {m m' : Machine} (h : m.step.Reaches m') : m.Reaches m' := by
  obtain ⟨n, rfl⟩ := h
  exact ⟨n + 1, rfl⟩

theorem Reaches.trans {m₁ m₂ m₃ : Machine} (h₁ : m₁.Reaches m₂) (h₂ : m₂.Reaches m₃) :
    m₁.Reaches m₃ := by
  obtain ⟨k, rfl⟩ := h₁
  obtain ⟨n, rfl⟩ := h₂
  exact ⟨n + k, Function.iterate_add_apply step n k m₁⟩

/-- The steps lead to what was read, given to the activations on the stack at the depth, or to the
refusal of it. -/
def Gives (m : Machine) (depth : Nat) (stack : List Frame) : Reading → Prop
  | .ok (e, left) => m.Reaches ⟨left, depth, stack, .give e⟩
  | .error b => ∃ m', m.Reaches m' ∧ m'.control = .refused b

variable {m : Machine} {depth level : Nat} {stack : List Frame} {tokens : List Token}

theorem Gives.of_step {r : Reading} (h : m.step.Gives depth stack r) : m.Gives depth stack r := by
  cases r with
  | ok p => exact Reaches.of_step h
  | error b =>
    obtain ⟨m', hm, hb⟩ := h
    exact ⟨m', hm.of_step, hb⟩

theorem gives_settle (r : Reading) : (m.settle r).Gives m.depth m.stack r := by
  cases r with
  | ok p => exact .refl _
  | error b => exact ⟨_, .refl _, rfl⟩

/-- What waits for a reading goes on with what it gave. -/
theorem Gives.bind {depth' : Nat} {stack' : List Frame} {r : Reading}
    {next : Expr → List Token → Reading} (h : m.Gives depth stack r)
    (hnext : ∀ e left, Gives ⟨left, depth, stack, .give e⟩ depth' stack' (next e left)) :
    m.Gives depth' stack' (r >>= fun p => next p.1 p.2) := by
  cases r with
  | error b => exact h
  | ok p =>
    obtain ⟨e, left⟩ := p
    have hfrom := hnext e left
    rw [Except.ok_bind]
    cases hn : next e left with
    | ok p =>
      rw [hn] at hfrom
      exact Reaches.trans h hfrom
    | error b =>
      rw [hn] at hfrom
      obtain ⟨m', hm, hb⟩ := hfrom
      exact ⟨m', Reaches.trans h hm, hb⟩

/-- At the limit the next token is refused for the level that it opens. -/
theorem gives_descend_full (p : Pending) (r : Routine) (h : m.depth = maxDepth) :
    (m.descend p r).Gives depth stack (.error ⟨.shallowerNesting, m.tokens⟩) := by
  refine ⟨_, .refl _, ?_⟩
  simp [descend, h]

theorem descend_of_lt {p : Pending} {r : Routine} (h : m.depth < maxDepth) :
    m.descend p r =
      ⟨m.tokens.tail, m.depth + 1, ⟨p, m.tokens.length⟩ :: m.stack, .call r⟩ := by
  simp [descend, Nat.not_lt.mpr h]

end Machine

namespace Nonterminal

open Machine

/-- From the call of the reader for the nonterminal, at a depth that leaves it so many levels, the
machine comes to what it gives. A chain is within the loop over its operands. -/
def Followed : Nonterminal → Nat → Prop
  | chain op, room => ∀ tokens depth stack, depth + room = maxDepth →
    Gives ⟨tokens, depth, stack, .call (.chain op)⟩ depth stack (op.read room tokens)
  | rest op, room => ∀ lhs? e tokens depth level left stack, depth + room = maxDepth →
    Gives ⟨tokens, depth, ⟨.operand op level lhs?, left⟩ :: stack, .give e⟩ level stack
      (op.readRest room (joined op lhs? e) tokens)
  | operand op, room => ∀ tokens depth stack, depth + room = maxDepth →
    Gives ⟨tokens, depth, stack, .call (.operand op)⟩ depth stack (op.readOperand room tokens)
  | primary, room => ∀ tokens depth stack, depth + room = maxDepth →
    Gives ⟨tokens, depth, stack, .call .primary⟩ depth stack (parsePrimary room tokens)

theorem followed_chain {op : Connective} {room : Nat} (hoperand : (operand op).Followed room)
    (hrest : (rest op).Followed room) : (chain op).Followed room := by
  intro tokens depth stack hroom
  rw [Connective.read_eq]
  refine .of_step ?_
  exact (hoperand tokens depth _ hroom).bind fun e left => hrest none e left depth depth _ stack hroom

theorem followed_rest {op : Connective} {room : Nat} (hoperand : ∀ r < room, (operand op).Followed r)
    (hrest : ∀ r < room, (rest op).Followed r) : (rest op).Followed room := by
  intro lhs? e tokens depth level left stack hroom
  refine .of_step ?_
  simp only [step, resume]
  by_cases hop : nextKind tokens = op.token
  · obtain ⟨span, tail, rfl⟩ := eq_cons_of_nextKind hop op.token_ne_endOfInput
    rw [if_pos hop]
    cases room with
    | zero =>
      rw [Connective.readRest_full]
      exact gives_descend_full _ _ hroom
    | succ room =>
      have hlt : depth < maxDepth := by omega
      have hdeeper : depth + 1 + room = maxDepth := by omega
      rw [Connective.readRest_more, descend_of_lt hlt]
      have hread := hoperand room (Nat.lt_succ_self room) tail (depth + 1)
        (⟨.operand op level (some (joined op lhs? e)), tail.length + 1⟩ :: stack) hdeeper
      exact hread.bind fun e' left' =>
        hrest room (Nat.lt_succ_self room) _ e' left' (depth + 1) level _ stack hdeeper
  · rw [if_neg hop, Connective.readRest_of_nextKind hop]
    exact .refl _

theorem followed_unary {room : Nat} (hnot : ∀ r < room, (operand .and).Followed r)
    (hprimary : primary.Followed room) : (operand .and).Followed room := by
  intro tokens depth stack hroom
  show Gives ⟨tokens, depth, stack, .call .unary⟩ depth stack (parseUnary room tokens)
  have hnegated (e : Expr) (left : List Token) :
      Gives ⟨left, depth + 1, ⟨.negation, tokens.length⟩ :: stack, .give e⟩ depth stack
        (.ok (.not e, left)) := .of_step (.refl _)
  have hback (e : Expr) (left : List Token) :
      Gives ⟨left, depth, ⟨.plain, tokens.length⟩ :: stack, .give e⟩ depth stack (.ok (e, left)) :=
    .of_step (.refl _)
  refine .of_step ?_
  simp only [step, enter]
  by_cases hk : nextKind tokens = .not
  · obtain ⟨span, tail, rfl⟩ := eq_cons_of_nextKind hk (by simp)
    rw [if_pos hk]
    cases room with
    | zero =>
      rw [parseUnary.eq_1]
      exact gives_descend_full _ _ hroom
    | succ room =>
      have hlt : depth < maxDepth := by omega
      rw [parseUnary.eq_2, descend_of_lt hlt]
      have hread := hnot room (Nat.lt_succ_self room) tail (depth + 1)
        (⟨.negation, tail.length + 1⟩ :: stack) (by omega)
      exact hread.bind hnegated
  · have hplain : parseUnary room tokens = parsePrimary room tokens := by
      refine parseUnary.eq_3 room tokens fun span tail ht => hk ?_
      rw [ht]
      rfl
    have hread := (hprimary tokens depth (⟨.plain, tokens.length⟩ :: stack) hroom).bind hback
    rw [if_neg hk, hplain, ← bind_pure (parsePrimary room tokens)]
    exact hread

theorem followed_primary {room : Nat} (hgroup : ∀ r < room, (chain .or).Followed r) :
    primary.Followed room := by
  intro tokens depth stack hroom
  refine .of_step ?_
  simp only [step, enter]
  split
  · next span tail =>
    cases room with
    | zero =>
      rw [parsePrimary.eq_1]
      exact gives_descend_full _ _ hroom
    | succ room =>
      have hlt : depth < maxDepth := by omega
      have hbody := hgroup room (Nat.lt_succ_self room) tail (depth + 1)
        (⟨.group, tail.length + 1⟩ :: stack) (by omega)
      rw [parsePrimary_group, descend_of_lt hlt]
      exact hbody.bind fun e left => .of_step (gives_settle _)
  · next label span rest =>
    rw [parsePrimary]
    exact gives_settle _
  · next hgroup hlabel =>
    rw [parsePrimary.eq_4 room tokens hgroup hlabel]
    exact gives_settle _

theorem followed (n : Nonterminal) (room : Nat) : n.Followed room :=
  reader_induction followed_chain followed_rest id followed_unary followed_primary n room

end Nonterminal

/-- The machine comes to the answer of the parser. -/
theorem Machine.exists_outcome (tokens : List Token) :
    ∃ n, (step^[n] (start tokens)).outcome? (stopOf tokens) = some (parseTokens tokens) := by
  have hread : (start tokens).Gives 0 [] (parseOr maxDepth tokens) :=
    (Nonterminal.chain .or).followed maxDepth tokens 0 [] (Nat.zero_add maxDepth)
  rw [parseTokens]
  cases hr : parseOr maxDepth tokens with
  | error b =>
    rw [hr] at hread
    obtain ⟨m', ⟨n, rfl⟩, hb⟩ := hread
    exact ⟨n, by rw [outcome?, hb]; rfl⟩
  | ok p =>
    obtain ⟨e, left⟩ := p
    rw [hr] at hread
    obtain ⟨n, hn⟩ := hread
    refine ⟨n + 1, ?_⟩
    rw [Function.iterate_succ_apply', hn, Except.ok_bind]
    simp only [step, finish]
    cases expectEnd left <;> rfl

end MicroFrontends
