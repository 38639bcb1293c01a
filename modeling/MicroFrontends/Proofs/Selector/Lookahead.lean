import MicroFrontends.Proofs.Selector.Reading

/-!
# How far the parser looks ahead

Every reader of the parser decides by the kinds of the tokens that it passes and of the one after
them, where the end of the list counts as the token that stands for the end. What comes later, and
where in the text the tokens are, makes no difference.

* `nextKind` : the kind of the next token;
* `leftOf`, `withLeft` : the tokens that a reader leaves, or blames, and the same outcome with
  others;
* `LooksAhead read` : the outcome of a reader is determined as said above;
* `LooksAhead.bind`, `LooksAhead.of_next` : sequences of readers and choices by the next token do
  so;
* `Nonterminal.looksAhead`, `readWhole_looksAhead` : all readers do, so a list of tokens is accepted
  or refused by its start.
-/

namespace MicroFrontends

/-- The kind of the next token. After the last token comes the end. -/
def nextKind (tokens : List Token) : TokenKind := (tokens.head?.map Token.kind).getD .endOfInput

@[simp] theorem nextKind_cons (t : Token) (tokens : List Token) :
    nextKind (t :: tokens) = t.kind := rfl

theorem nextKind_append {used used' left left' : List Token} (hu : kindsOf used' = kindsOf used)
    (hl : nextKind left' = nextKind left) :
    nextKind (used' ++ left') = nextKind (used ++ left) := by
  cases used with
  | nil =>
    obtain rfl := List.map_eq_nil_iff.mp hu
    exact hl
  | cons t used =>
    obtain ⟨span, rest, rfl, -⟩ := kindsOf_eq_cons hu
    rfl

theorem eq_cons_of_nextKind {tokens : List Token} {k : TokenKind} (h : nextKind tokens = k)
    (hk : k ≠ .endOfInput) : ∃ span rest, tokens = ⟨k, span⟩ :: rest := by
  cases tokens with
  | nil => exact absurd h.symm hk
  | cons t rest => exact ⟨t.span, rest, by rw [← h]; rfl⟩

section
variable {α β : Type}

/-- The tokens that are left, or those from the blamed one on. -/
def leftOf : Except Blame (α × List Token) → List Token
  | .ok (_, left) => left
  | .error b => b.rest

/-- The same outcome with other tokens after what was read. -/
def withLeft (left : List Token) : Except Blame (α × List Token) → Except Blame (α × List Token)
  | .ok (a, _) => .ok (a, left)
  | .error b => .error ⟨b.expected, left⟩

/-- The reader passes tokens at the start, and the outcome is the same for all lists that begin with
tokens of these kinds and of the kind after them. -/
def LooksAhead (read : List Token → Except Blame (α × List Token)) : Prop :=
  ∀ tokens, ∃ used, tokens = used ++ leftOf (read tokens) ∧
    ∀ used' left, kindsOf used' = kindsOf used → nextKind left = nextKind (leftOf (read tokens)) →
      read (used' ++ left) = withLeft left (read tokens)

namespace LooksAhead

theorem ok (a : α) : LooksAhead fun tokens => .ok (a, tokens) := by
  intro tokens
  refine ⟨[], rfl, fun used' left hu _ => ?_⟩
  obtain rfl := List.map_eq_nil_iff.mp hu
  rfl

theorem error (x : Expected) : LooksAhead (α := α) fun tokens => .error ⟨x, tokens⟩ := by
  intro tokens
  refine ⟨[], rfl, fun used' left hu _ => ?_⟩
  obtain rfl := List.map_eq_nil_iff.mp hu
  rfl

theorem bind {read : List Token → Except Blame (α × List Token)}
    {next : α → List Token → Except Blame (β × List Token)} (h : LooksAhead read)
    (hnext : ∀ a, LooksAhead (next a)) :
    LooksAhead fun tokens => read tokens >>= fun p => next p.1 p.2 := by
  intro tokens
  obtain ⟨used, ht, hread⟩ := h tokens
  dsimp only
  cases hr : read tokens with
  | error b =>
    rw [hr] at ht hread
    refine ⟨used, ht, fun used' left hu hl => ?_⟩
    rw [hread used' left hu hl]
    rfl
  | ok p =>
    obtain ⟨a, mid⟩ := p
    obtain ⟨used₂, hm, hread₂⟩ := hnext a mid
    have ht : tokens = used ++ mid := by rwa [hr] at ht
    rw [Except.ok_bind]
    refine ⟨used ++ used₂, ?_, fun used' left hu hl => ?_⟩
    · rw [List.append_assoc, ← hm]
      exact ht
    · -- the second reader passes part of what the first one leaves, and so fixes the token there
      rw [kindsOf_append] at hu
      obtain ⟨u₁, u₂, rfl, h₁, h₂⟩ := kindsOf_eq_append hu
      have hmid : nextKind (u₂ ++ left) = nextKind (leftOf (read tokens)) := by
        rw [hr]
        exact (nextKind_append h₂ hl).trans (congrArg nextKind hm.symm)
      rw [List.append_assoc, hread u₁ _ h₁ hmid, hr]
      exact hread₂ u₂ left h₂ hl

/-- A reader that looks at the next token and either passes it or leaves all tokens to another one.
-/
theorem of_next {read : List Token → Except Blame (α × List Token)}
    (h : ∀ k, (k ≠ .endOfInput ∧ ∃ next, LooksAhead next ∧
        ∀ span rest, read (⟨k, span⟩ :: rest) = next rest) ∨
      ∃ next, LooksAhead next ∧ ∀ tokens, nextKind tokens = k → read tokens = next tokens) :
    LooksAhead read := by
  intro tokens
  rcases h (nextKind tokens) with ⟨hk, next, hnext, hread⟩ | ⟨next, hnext, hread⟩
  · obtain ⟨span, rest, ht⟩ := eq_cons_of_nextKind rfl hk
    generalize nextKind tokens = k at hread ht
    subst ht
    obtain ⟨used, hrest, hused⟩ := hnext rest
    rw [hread span rest]
    refine ⟨⟨k, span⟩ :: used, congrArg (_ :: ·) hrest, fun used' left hu hl => ?_⟩
    obtain ⟨span', u, rfl, hku⟩ := kindsOf_eq_cons hu
    rw [List.cons_append, hread span' _]
    exact hused u left hku hl
  · obtain ⟨used, ht, hused⟩ := hnext tokens
    rw [hread tokens rfl]
    refine ⟨used, ht, fun used' left hu hl => ?_⟩
    rw [hread _ ((nextKind_append hu hl).trans (congrArg nextKind ht.symm))]
    exact hused used' left hu hl

end LooksAhead

end

/-! ## The readers -/

theorem parseValue_looksAhead : LooksAhead parseValue := by
  refine .of_next fun k => ?_
  cases k with
  | label text => exact .inl ⟨by simp, _, .ok text, fun _ _ => rfl⟩
  | string text => exact .inl ⟨by simp, _, .ok text, fun _ _ => rfl⟩
  | _ =>
    refine .inr ⟨_, .error .value, fun tokens hk => parseValue.eq_3 tokens ?_ ?_⟩ <;>
      (rintro value span rest rfl; cases hk)

theorem parseComparison_looksAhead (label : String) : LooksAhead (parseComparison label) := by
  refine .of_next fun k => ?_
  cases k with
  | equals =>
    exact .inl ⟨by simp, _, parseValue_looksAhead.bind fun v => .ok (Expr.equals label v),
      fun _ _ => rfl⟩
  | notEquals =>
    exact .inl ⟨by simp, _, parseValue_looksAhead.bind fun v => .ok (Expr.not (.equals label v)),
      fun _ _ => rfl⟩
  | _ =>
    refine .inr ⟨_, .ok (Expr.present label), fun tokens hk =>
      parseComparison.eq_3 label tokens ?_ ?_⟩ <;>
      (rintro span rest rfl; cases hk)

/-- Reads the end of a group around an expression. -/
def closeGroup (e : Expr) : List Token → Reading
  | ⟨.rparen, _⟩ :: rest => .ok (e, rest)
  | tokens => .error ⟨.closingParen, tokens⟩

theorem parsePrimary_group (room : Nat) (span : Span) (rest : List Token) :
    parsePrimary (room + 1) (⟨.lparen, span⟩ :: rest) =
      parseOr room rest >>= fun p => closeGroup p.1 p.2 := by
  rw [parsePrimary]
  refine congrArg (parseOr room rest >>= ·) (funext fun p => ?_)
  rcases p with ⟨e, _ | ⟨⟨k, span⟩, rest⟩⟩
  · rfl
  · cases k <;> rfl

theorem closeGroup_looksAhead (e : Expr) : LooksAhead (closeGroup e) := by
  refine .of_next fun k => ?_
  cases k with
  | rparen => exact .inl ⟨by simp, _, .ok e, fun _ _ => rfl⟩
  | _ =>
    refine .inr ⟨_, .error .closingParen, fun tokens hk => closeGroup.eq_2 e tokens ?_⟩
    rintro span rest rfl
    cases hk

theorem Connective.token_ne_endOfInput (op : Connective) : op.token ≠ .endOfInput := by
  cases op <;> simp [token]

theorem Connective.readRest_of_nextKind {op : Connective} {room : Nat} {lhs : Expr}
    {tokens : List Token} (h : nextKind tokens ≠ op.token) :
    op.readRest room lhs tokens = .ok (lhs, tokens) := by
  refine readRest_stop fun span rest ht => ?_
  subst ht
  exact h rfl

namespace Nonterminal

/-- The reader for the nonterminal decides by what it passes and the next token. -/
def ReaderLooksAhead : Nonterminal → Nat → Prop
  | chain op, room => LooksAhead (op.read room)
  | rest op, room => ∀ lhs, LooksAhead (op.readRest room lhs)
  | operand op, room => LooksAhead (op.readOperand room)
  | primary, room => LooksAhead (parsePrimary room)

theorem looksAhead_primary {room : Nat} (hgroup : ∀ r < room, (chain .or).ReaderLooksAhead r) :
    primary.ReaderLooksAhead room := by
  refine LooksAhead.of_next fun k => ?_
  cases k with
  | lparen =>
    cases room with
    | zero =>
      refine .inr ⟨_, .error .shallowerNesting, fun tokens hk => ?_⟩
      obtain ⟨span, rest, rfl⟩ := eq_cons_of_nextKind hk (by simp)
      exact parsePrimary.eq_1 span rest
    | succ room =>
      have hbody : LooksAhead (parseOr room) := hgroup room (Nat.lt_succ_self room)
      exact .inl ⟨by simp, _, hbody.bind closeGroup_looksAhead, parsePrimary_group room⟩
  | label label =>
    refine .inl ⟨by simp, _, parseComparison_looksAhead label, fun span rest => ?_⟩
    rw [parsePrimary]
  | _ =>
    refine .inr ⟨_, .error .operand, fun tokens hk => parsePrimary.eq_4 room tokens ?_ ?_⟩
    all_goals
      intros
      subst tokens
      cases hk

theorem looksAhead_unary {room : Nat} (hnot : ∀ r < room, (operand .and).ReaderLooksAhead r)
    (hprimary : primary.ReaderLooksAhead room) : (operand .and).ReaderLooksAhead room := by
  refine LooksAhead.of_next fun k => ?_
  cases k with
  | not =>
    cases room with
    | zero =>
      refine .inr ⟨_, .error .shallowerNesting, fun tokens hk => ?_⟩
      obtain ⟨span, rest, rfl⟩ := eq_cons_of_nextKind hk (by simp)
      exact parseUnary.eq_1 span rest
    | succ room =>
      have harg : LooksAhead (parseUnary room) := hnot room (Nat.lt_succ_self room)
      refine .inl ⟨by simp, _, harg.bind fun e => .ok (Expr.not e), fun span rest => ?_⟩
      exact parseUnary.eq_2 span rest room
  | _ =>
    refine .inr ⟨_, hprimary, fun tokens hk => parseUnary.eq_3 room tokens ?_⟩
    rintro span rest rfl
    cases hk

theorem looksAhead_rest {op : Connective} {room : Nat}
    (hoperand : ∀ r < room, (operand op).ReaderLooksAhead r)
    (hrest : ∀ r < room, (rest op).ReaderLooksAhead r) : (rest op).ReaderLooksAhead room := by
  intro lhs
  refine .of_next fun k => ?_
  by_cases hop : k = op.token
  · subst hop
    cases room with
    | zero =>
      refine .inr ⟨_, .error .shallowerNesting, fun tokens hk => ?_⟩
      obtain ⟨span, rest, rfl⟩ := eq_cons_of_nextKind hk op.token_ne_endOfInput
      exact Connective.readRest_full span rest
    | succ room =>
      have hnext : LooksAhead (op.readOperand room) := hoperand room (Nat.lt_succ_self room)
      have hothers (e : Expr) : LooksAhead (op.readRest room (op.join lhs e)) :=
        hrest room (Nat.lt_succ_self room) _
      exact .inl ⟨op.token_ne_endOfInput, _, hnext.bind hothers, Connective.readRest_more⟩
  · exact .inr ⟨_, .ok lhs, fun tokens hk => Connective.readRest_of_nextKind (hk ▸ hop)⟩

theorem looksAhead_chain {op : Connective} {room : Nat}
    (hoperand : (operand op).ReaderLooksAhead room) (hrest : (rest op).ReaderLooksAhead room) :
    (chain op).ReaderLooksAhead room := by
  have hfirst : LooksAhead (op.readOperand room) := hoperand
  have hread : op.read room = _ := funext (op.read_eq room)
  rw [ReaderLooksAhead, hread]
  exact hfirst.bind hrest

theorem looksAhead (n : Nonterminal) (room : Nat) : n.ReaderLooksAhead room :=
  reader_induction looksAhead_chain looksAhead_rest id looksAhead_unary looksAhead_primary n room

end Nonterminal

/-! ## Whole token lists -/

/-- Nothing is left after an expression but the end. -/
def atEnd (e : Expr) (tokens : List Token) : Reading :=
  expectEnd tokens >>= fun _ => .ok (e, tokens)

/-- Reads an expression with nothing after it. -/
def readWhole (tokens : List Token) : Reading :=
  parseOr maxDepth tokens >>= fun p => atEnd p.1 p.2

theorem atEnd_looksAhead (e : Expr) : LooksAhead (atEnd e) := by
  refine .of_next fun k => ?_
  by_cases hk : k = .endOfInput
  · refine .inr ⟨_, .ok e, fun tokens ht => ?_⟩
    have hend : expectEnd tokens = .ok () := by
      rw [expectEnd_eq_ok_iff]
      cases tokens <;> simp_all
    rw [atEnd, hend, Except.ok_bind]
  · refine .inr ⟨_, .error .endOfInput, fun tokens ht => ?_⟩
    obtain ⟨span, rest, rfl⟩ := eq_cons_of_nextKind ht hk
    cases k <;> first | rfl | exact absurd rfl hk

theorem atEnd_eq_error {e : Expr} {tokens : List Token} {b : Blame}
    (h : atEnd e tokens = .error b) : b = ⟨.endOfInput, tokens⟩ := by
  rcases Except.bind_eq_error.mp h with he | ⟨_, -, he⟩
  · unfold expectEnd at he
    split at he
    · cases he
    · cases he
    · cases he
      rfl
  · cases he

theorem readWhole_looksAhead : LooksAhead readWhole :=
  LooksAhead.bind ((Nonterminal.chain .or).looksAhead maxDepth) atEnd_looksAhead

theorem parseTokens_eq (tokens : List Token) :
    parseTokens tokens =
      ((readWhole tokens).map Prod.fst).mapError (·.toSyntaxError (stopOf tokens)) := by
  rw [parseTokens, readWhole]
  refine congrArg (Except.mapError _) ?_
  cases parseOr maxDepth tokens with
  | error b => rfl
  | ok p =>
    obtain ⟨e, left⟩ := p
    simp only [Except.ok_bind, atEnd]
    cases expectEnd left <;> rfl

theorem parseTokens_eq_error_iff {tokens : List Token} {err : SyntaxError} :
    parseTokens tokens = .error err ↔
      ∃ b, readWhole tokens = .error b ∧ b.toSyntaxError (stopOf tokens) = err := by
  rw [parseTokens_eq, Except.mapError_eq_error]
  cases readWhole tokens <;> simp [Except.map]

end MicroFrontends
