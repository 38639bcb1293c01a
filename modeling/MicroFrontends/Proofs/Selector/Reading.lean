import MicroFrontends.Proofs.Outcome
import MicroFrontends.Proofs.Runs
import MicroFrontends.Proofs.Selector.Levels

/-!
# The parser reads exactly the derivations that fit

* `Connective.read`, `readOperand`, `readRest` : the parser's functions by the connective, with the
  equations that both chains share (`read_eq`, `readRest_more`, `readRest_stop`);
* `Derivation.reads` : the tokens of a derivation are read as it says, if there is room for its
  nesting and nothing after it goes on with it;
* `Derivation.runsOut_at` : without that room `Derivation.RunsOut`, and the first token that is too
  deep is what is blamed;
* `Nonterminal.reader_induction` : what holds of all readers, by one case for each of them;
* `Nonterminal.sound` : whatever is read has a derivation that fits;
* `parseTokens_eq_ok_iff` : so the expressions of token lists are those of their derivations.
-/

namespace MicroFrontends

/-- The tokens without their places. -/
def kindsOf (tokens : List Token) : List TokenKind := tokens.map Token.kind

@[simp] theorem kindsOf_nil : kindsOf [] = [] := rfl

@[simp] theorem kindsOf_cons (t : Token) (tokens : List Token) :
    kindsOf (t :: tokens) = t.kind :: kindsOf tokens := rfl

@[simp] theorem kindsOf_append (tokens rest : List Token) :
    kindsOf (tokens ++ rest) = kindsOf tokens ++ kindsOf rest := List.map_append

theorem kindsOf_eq_cons {tokens : List Token} {k : TokenKind} {kinds : List TokenKind}
    (h : kindsOf tokens = k :: kinds) :
    ∃ span rest, tokens = ⟨k, span⟩ :: rest ∧ kindsOf rest = kinds := by
  obtain ⟨t, rest, rfl, rfl, rfl⟩ := List.map_eq_cons_iff.mp h
  exact ⟨t.span, rest, rfl, rfl⟩

theorem kindsOf_eq_append {tokens : List Token} {left right : List TokenKind}
    (h : kindsOf tokens = left ++ right) :
    ∃ used rest, tokens = used ++ rest ∧ kindsOf used = left ∧ kindsOf rest = right := by
  obtain ⟨used, rest, rfl, hl, hr⟩ := List.map_eq_append_iff.mp h
  exact ⟨used, rest, rfl, hl, hr⟩

/-- What a reader gives: an expression and the tokens that are left. -/
abbrev Reading := Except Blame (Expr × List Token)

/-! ## The readers by the connective -/

namespace Connective

/-- Reads a chain. -/
def read : Connective → Nat → List Token → Reading
  | or => parseOr
  | and => parseAnd

/-- Reads an operand of a chain. -/
def readOperand : Connective → Nat → List Token → Reading
  | or => parseAnd
  | and => parseUnary

/-- Reads the further operands of a chain. -/
def readRest : Connective → Nat → Expr → List Token → Reading
  | or => parseOrChain
  | and => parseAndChain

variable {op : Connective} {room : Nat} {lhs : Expr}

theorem read_eq (op : Connective) (room : Nat) (tokens : List Token) :
    op.read room tokens = op.readOperand room tokens >>= fun p => op.readRest room p.1 p.2 := by
  cases op with
  | or => exact parseOr.eq_1 room tokens
  | and => exact parseAnd.eq_1 room tokens

theorem readRest_full (span : Span) (rest : List Token) :
    op.readRest 0 lhs (⟨op.token, span⟩ :: rest) =
      .error ⟨.shallowerNesting, ⟨op.token, span⟩ :: rest⟩ := by
  cases op with
  | or => exact parseOrChain.eq_1 lhs span rest
  | and => exact parseAndChain.eq_1 lhs span rest

theorem readRest_more (span : Span) (rest : List Token) :
    op.readRest (room + 1) lhs (⟨op.token, span⟩ :: rest) =
      op.readOperand room rest >>= fun p => op.readRest room (op.join lhs p.1) p.2 := by
  cases op with
  | or => exact parseOrChain.eq_2 lhs span rest room
  | and => exact parseAndChain.eq_2 lhs span rest room

theorem readRest_stop {tokens : List Token}
    (h : ∀ span rest, tokens ≠ ⟨op.token, span⟩ :: rest) :
    op.readRest room lhs tokens = .ok (lhs, tokens) := by
  cases op with
  | or => exact parseOrChain.eq_3 room lhs tokens h
  | and => exact parseAndChain.eq_3 room lhs tokens h

theorem readRest_of_stops {tokens : List Token} (h : (Nonterminal.rest op).Stops (kindsOf tokens)) :
    op.readRest room lhs tokens = .ok (lhs, tokens) := by
  refine readRest_stop fun span rest heq => ?_
  subst heq
  have hc := Nonterminal.stops_cons.mp (Nonterminal.stops_rest.mp h)
  rw [Nonterminal.continues_token] at hc
  cases hc

end Connective

/-! ## What the grammar derives is read -/

/-- The reader for a nonterminal gives the meaning and the tokens that are left. -/
def Nonterminal.Reads : (n : Nonterminal) → Nat → List Token → n.Meaning → List Token → Prop
  | chain op, room, tokens, e, left => op.read room tokens = .ok (e, left)
  | rest op, room, tokens, extend, left =>
    ∀ lhs, op.readRest room lhs tokens = .ok (extend lhs, left)
  | operand op, room, tokens, e, left => op.readOperand room tokens = .ok (e, left)
  | primary, room, tokens, e, left => parsePrimary room tokens = .ok (e, left)

/-- The reader for a nonterminal ends at the start of the tokens `left`, which opens a level too
many. -/
def Nonterminal.RunsOutAt : (n : Nonterminal) → Nat → List Token → List Token → Prop
  | chain op, room, tokens, left => op.read room tokens = .error ⟨.shallowerNesting, left⟩
  | rest op, room, tokens, left =>
    ∀ lhs, op.readRest room lhs tokens = .error ⟨.shallowerNesting, left⟩
  | operand op, room, tokens, left =>
    op.readOperand room tokens = .error ⟨.shallowerNesting, left⟩
  | primary, room, tokens, left => parsePrimary room tokens = .error ⟨.shallowerNesting, left⟩

theorem parseComparison_of_stops {label : String} {tokens : List Token}
    (h : Nonterminal.primary.Stops (kindsOf tokens)) :
    parseComparison label tokens = .ok (.present label, tokens) := by
  refine parseComparison.eq_3 label tokens (fun span rest heq => ?_) (fun span rest heq => ?_)
  all_goals
    subst heq
    cases Nonterminal.stops_cons.mp h

theorem parseComparison_sign (label : String) (negated : Bool) (value : Literal) (at₁ at₂ : Span)
    (rest : List Token) :
    parseComparison label (⟨comparisonSign negated, at₁⟩ :: ⟨value.token, at₂⟩ :: rest) =
      .ok (comparisonExpr label negated value.text, rest) := by
  cases negated <;> cases value <;> rfl

theorem parseUnary_of_primary (d : Derivation .primary) {room : Nat} {used rest : List Token}
    (hk : kindsOf used = d.kinds) :
    parseUnary room (used ++ rest) = parsePrimary room (used ++ rest) := by
  refine parseUnary.eq_3 room _ fun span tail heq => ?_
  have h := congrArg kindsOf heq
  rw [kindsOf_append, hk, kindsOf_cons] at h
  exact d.kinds_primary_ne_not _ _ h

namespace Derivation

/-- An operand ends before tokens that form the rest of its chain. -/
theorem stops_append {op : Connective} {others : Derivation (.rest op)} {used rest : List Token}
    (hk : kindsOf used = others.kinds) (hs : (Nonterminal.chain op).Stops (kindsOf rest)) :
    (Nonterminal.operand op).Stops (kindsOf (used ++ rest)) := by
  rw [kindsOf_append, hk]
  exact stops_operand others hs

/-- The tokens of a derivation are read as it says, if there is room for its nesting. -/
theorem reads {n : Nonterminal} (d : Derivation n) {room : Nat} {used rest : List Token}
    (hk : kindsOf used = d.kinds) (hn : d.nesting ≤ room) (hs : n.Stops (kindsOf rest)) :
    n.Reads room (used ++ rest) d.lower rest := by
  induction d generalizing room used rest with
  | @chain op first others ihfirst ihothers =>
    obtain ⟨u₁, u₂, rfl, h₁, h₂⟩ := kindsOf_eq_append hk
    obtain ⟨hfirst, hothers⟩ := Nat.max_le.mp hn
    have hstop := stops_append h₂ hs
    have hread : op.readOperand room (u₁ ++ (u₂ ++ rest)) = .ok (first.lower, u₂ ++ rest) :=
      ihfirst h₁ hfirst hstop
    show op.read room (u₁ ++ u₂ ++ rest) = _
    rw [List.append_assoc, Connective.read_eq, hread]
    exact ihothers h₂ hothers (Nonterminal.stops_rest.mpr hs) _
  | done =>
    obtain rfl := List.map_eq_nil_iff.mp hk
    exact fun lhs => Connective.readRest_of_stops hs
  | @more op next others ihnext ihothers =>
    obtain ⟨span, u, rfl, hu⟩ := kindsOf_eq_cons hk
    obtain ⟨u₁, u₂, rfl, h₁, h₂⟩ := kindsOf_eq_append hu
    obtain ⟨room, rfl⟩ : ∃ r, room = r + 1 := ⟨room - 1, by simp only [nesting] at hn; omega⟩
    obtain ⟨hnext, hothers⟩ := Nat.max_le.mp (Nat.le_of_succ_le_succ hn)
    have hstop := stops_append h₂ (Nonterminal.stops_rest.mp hs)
    have hread : op.readOperand room (u₁ ++ (u₂ ++ rest)) = .ok (next.lower, u₂ ++ rest) :=
      ihnext h₁ hnext hstop
    intro lhs
    show op.readRest (room + 1) lhs (⟨op.token, span⟩ :: (u₁ ++ u₂ ++ rest)) = _
    rw [List.append_assoc, Connective.readRest_more, hread]
    exact ihothers h₂ hothers hs _
  | conjunction operands ih => exact ih hk hn (Nonterminal.stops_conjunction.mp hs)
  | primary inner ih =>
    show parseUnary room (used ++ rest) = _
    rw [parseUnary_of_primary inner hk]
    exact ih hk hn (Nonterminal.stops_primary.mpr hs)
  | not arg ih =>
    obtain ⟨span, u, rfl, hu⟩ := kindsOf_eq_cons hk
    obtain ⟨room, rfl⟩ : ∃ r, room = r + 1 := ⟨room - 1, by simp only [nesting] at hn; omega⟩
    have harg : parseUnary room (u ++ rest) = .ok (arg.lower, rest) :=
      ih hu (Nat.le_of_succ_le_succ hn) hs
    show parseUnary (room + 1) (⟨.not, span⟩ :: (u ++ rest)) = _
    rw [parseUnary, harg]
    rfl
  | group body ih =>
    obtain ⟨span, u, rfl, hu⟩ := kindsOf_eq_cons hk
    obtain ⟨u, close, rfl, hb, hc⟩ := kindsOf_eq_append hu
    obtain ⟨stop, tail, rfl, ht⟩ := kindsOf_eq_cons hc
    obtain rfl := List.map_eq_nil_iff.mp ht
    obtain ⟨room, rfl⟩ : ∃ r, room = r + 1 := ⟨room - 1, by simp only [nesting] at hn; omega⟩
    have hbody : parseOr room (u ++ ⟨.rparen, stop⟩ :: rest) =
        .ok (body.lower, ⟨.rparen, stop⟩ :: rest) :=
      ih hb (Nat.le_of_succ_le_succ hn) (Nonterminal.stops_cons.mpr rfl)
    show parsePrimary (room + 1) (⟨.lparen, span⟩ :: (u ++ [⟨.rparen, stop⟩] ++ rest)) = _
    rw [List.append_assoc, parsePrimary]
    show (parseOr room (u ++ ⟨.rparen, stop⟩ :: rest) >>= _) = _
    rw [hbody]
    rfl
  | present label =>
    obtain ⟨span, u, rfl, hu⟩ := kindsOf_eq_cons hk
    obtain rfl := List.map_eq_nil_iff.mp hu
    show parsePrimary room (⟨.label label, span⟩ :: rest) = _
    rw [parsePrimary, parseComparison_of_stops hs]
    rfl
  | compare label negated value =>
    obtain ⟨at₁, u₁, rfl, h₁⟩ := kindsOf_eq_cons hk
    obtain ⟨at₂, u₂, rfl, h₂⟩ := kindsOf_eq_cons h₁
    obtain ⟨at₃, u₃, rfl, h₃⟩ := kindsOf_eq_cons h₂
    obtain rfl := List.map_eq_nil_iff.mp h₃
    show parsePrimary room (⟨.label label, at₁⟩ :: ⟨comparisonSign negated, at₂⟩ ::
      ⟨value.token, at₃⟩ :: rest) = _
    rw [parsePrimary, parseComparison_sign]
    rfl

theorem length_levels_eq {n : Nonterminal} {d : Derivation n} {used : List Token} {level : Nat}
    (hk : kindsOf used = d.kinds) : (d.levels level).length = used.length := by
  rw [length_levels, ← hk, kindsOf, List.length_map]

theorem levels_le_of_fits {n : Nonterminal} (d : Derivation n) {room level : Nat}
    (h : d.nesting ≤ room) : ∀ l ∈ d.levels level, l ≤ level + room := fun l hl =>
  Nat.le_trans (d.levels_le level l hl) (Nat.add_le_add_left h level)

/-- The reading of a derivation at a level ends at the first of its tokens that is too deep, which
opens a level. -/
def RunsOut {n : Nonterminal} (d : Derivation n) (level room : Nat) (used rest : List Token) :
    Prop :=
  ∃ before t after, used = before ++ t :: after ∧ t.kind.opensLevel = true ∧
    FirstAbove (level + room) (d.levels level) before.length ∧
    n.RunsOutAt room (used ++ rest) (t :: (after ++ rest))

/-- Of an operand and the rest of its chain, either the operand runs out of room, or it is read and
the rest does. -/
theorem runsOut_operand_rest {op : Connective} {first : Derivation (.operand op)}
    {others : Derivation (.rest op)} {level room : Nat} {u₁ u₂ rest : List Token}
    (h₁ : kindsOf u₁ = first.kinds) (hs : (Nonterminal.operand op).Stops (kindsOf (u₂ ++ rest)))
    (hn : room < max first.nesting others.nesting)
    (hfirst : room < first.nesting → first.RunsOut level room u₁ (u₂ ++ rest))
    (hothers : room < others.nesting → others.RunsOut level room u₂ rest) :
    ∃ before t after, u₁ ++ u₂ = before ++ t :: after ∧ t.kind.opensLevel = true ∧
      FirstAbove (level + room) (first.levels level ++ others.levels level) before.length ∧
      ∀ f : Expr → Expr,
        (op.readOperand room (u₁ ++ u₂ ++ rest) >>= fun p => op.readRest room (f p.1) p.2) =
          .error ⟨.shallowerNesting, t :: (after ++ rest)⟩ := by
  by_cases hroom : room < first.nesting
  · obtain ⟨before, t, after, rfl, ht, hl, hr⟩ := hfirst hroom
    have hr : op.readOperand room (before ++ t :: after ++ (u₂ ++ rest)) = .error _ := hr
    refine ⟨before, t, after ++ u₂, by simp, ht, hl.append _, fun f => ?_⟩
    rw [List.append_assoc _ u₂, hr, Except.error_bind, List.append_assoc]
  · have hfits := Nat.le_of_not_lt hroom
    have hread : op.readOperand room (u₁ ++ (u₂ ++ rest)) = .ok (first.lower, u₂ ++ rest) :=
      first.reads h₁ hfits hs
    obtain ⟨before, t, after, rfl, ht, hl, hr⟩ := hothers (by omega)
    refine ⟨u₁ ++ before, t, after, by simp, ht, ?_, fun f => ?_⟩
    · have := hl.prepend (first.levels_le_of_fits hfits)
      rwa [length_levels_eq h₁, ← List.length_append] at this
    · rw [List.append_assoc u₁, hread]
      exact hr (f first.lower)

/-- Without room for the nesting of a derivation the reading ends at the first of its tokens at a
level that is too deep. -/
theorem runsOut_at {n : Nonterminal} (d : Derivation n) {room : Nat} {used rest : List Token}
    (hk : kindsOf used = d.kinds) (hn : room < d.nesting) (hs : n.Stops (kindsOf rest))
    (level : Nat) : d.RunsOut level room used rest := by
  induction d generalizing room used rest level with
  | @chain op first others ihfirst ihothers =>
    obtain ⟨u₁, u₂, rfl, h₁, h₂⟩ := kindsOf_eq_append hk
    have hstop := stops_append h₂ hs
    obtain ⟨before, t, after, hused, ht, hl, hr⟩ := runsOut_operand_rest h₁ hstop hn
      (fun h => ihfirst h₁ h hstop level)
      (fun h => ihothers h₂ h (Nonterminal.stops_rest.mpr hs) level)
    exact ⟨before, t, after, hused, ht, hl, (op.read_eq room _).trans (hr id)⟩
  | done => exact absurd hn (Nat.not_lt_zero room)
  | @more op next others ihnext ihothers =>
    obtain ⟨span, u, rfl, hu⟩ := kindsOf_eq_cons hk
    cases room with
    | zero =>
      refine ⟨[], _, u, rfl, op.opensLevel_token, .here _ _, fun lhs => ?_⟩
      exact Connective.readRest_full span _
    | succ room =>
      obtain ⟨u₁, u₂, rfl, h₁, h₂⟩ := kindsOf_eq_append hu
      have hstop := stops_append h₂ (Nonterminal.stops_rest.mp hs)
      obtain ⟨before, t, after, hused, ht, hl, hr⟩ :=
        runsOut_operand_rest h₁ hstop (Nat.lt_of_succ_lt_succ hn)
          (fun h => ihnext h₁ h hstop (level + 1)) (fun h => ihothers h₂ h hs (level + 1))
      have hlimit : level + 1 + room = level + (room + 1) := by omega
      refine ⟨⟨op.token, span⟩ :: before, t, after, by rw [hused]; rfl, ht,
        .cons (by omega) (hlimit ▸ hl), fun lhs => ?_⟩
      exact (Connective.readRest_more span _).trans (hr (op.join lhs))
  | conjunction operands ih => exact ih hk hn (Nonterminal.stops_conjunction.mp hs) level
  | primary inner ih =>
    obtain ⟨before, t, after, rfl, ht, hl, hr⟩ := ih hk hn (Nonterminal.stops_primary.mpr hs) level
    exact ⟨before, t, after, rfl, ht, hl, (parseUnary_of_primary inner hk).trans hr⟩
  | not arg ih =>
    obtain ⟨span, u, rfl, hu⟩ := kindsOf_eq_cons hk
    cases room with
    | zero => exact ⟨[], _, u, rfl, rfl, .here _ _, parseUnary.eq_1 span _⟩
    | succ room =>
      obtain ⟨before, t, after, rfl, ht, hl, hr⟩ :=
        ih hu (Nat.lt_of_succ_lt_succ hn) hs (level + 1)
      have hlimit : level + 1 + room = level + (room + 1) := by omega
      refine ⟨⟨.not, span⟩ :: before, t, after, rfl, ht, .cons (by omega) (hlimit ▸ hl), ?_⟩
      show parseUnary (room + 1) (⟨.not, span⟩ :: (before ++ t :: after ++ rest)) = _
      have hr : parseUnary room (before ++ t :: after ++ rest) = _ := hr
      rw [parseUnary, hr]
      rfl
  | group body ih =>
    obtain ⟨span, u, rfl, hu⟩ := kindsOf_eq_cons hk
    obtain ⟨u, close, rfl, hb, hc⟩ := kindsOf_eq_append hu
    cases room with
    | zero => exact ⟨[], _, u ++ close, rfl, rfl, .here _ _, parsePrimary.eq_1 span _⟩
    | succ room =>
      have hstop : (Nonterminal.chain .or).Stops (kindsOf (close ++ rest)) := by
        rw [kindsOf_append, hc]
        exact Nonterminal.stops_cons.mpr rfl
      obtain ⟨before, t, after, rfl, ht, hl, hr⟩ :=
        ih hb (Nat.lt_of_succ_lt_succ hn) hstop (level + 1)
      have hlimit : level + 1 + room = level + (room + 1) := by omega
      refine ⟨⟨.lparen, span⟩ :: before, t, after ++ close, by simp, ht,
        .cons (by omega) (hlimit ▸ hl.append _), ?_⟩
      show parsePrimary (room + 1) (⟨.lparen, span⟩ :: (before ++ t :: after ++ close ++ rest)) = _
      have hr : parseOr room (before ++ t :: after ++ (close ++ rest)) = _ := hr
      rw [List.append_assoc, parsePrimary]
      show (parseOr room (before ++ t :: after ++ (close ++ rest)) >>= _) = _
      rw [hr, List.append_assoc]
      rfl
  | present label => exact absurd hn (Nat.not_lt_zero room)
  | compare label negated value => exact absurd hn (Nat.not_lt_zero room)

end Derivation

/-! ## Induction along the calls of the readers -/

/-- A property of the readers for all nonterminals and rooms, from one case for each reader in which
it is known for the readers that it calls. A token that opens a level leaves less room after it. -/
theorem Nonterminal.reader_induction {P : Nonterminal → Nat → Prop}
    (hchain : ∀ {op room}, P (operand op) room → P (rest op) room → P (chain op) room)
    (hrest : ∀ {op room}, (∀ r < room, P (operand op) r) → (∀ r < room, P (rest op) r) →
      P (rest op) room)
    (hconjunction : ∀ {room}, P (chain .and) room → P (operand .or) room)
    (hunary : ∀ {room}, (∀ r < room, P (operand .and) r) → P primary room → P (operand .and) room)
    (hprimary : ∀ {room}, (∀ r < room, P (chain .or) r) → P primary room)
    (n : Nonterminal) (room : Nat) : P n room := by
  induction room using Nat.strongRecOn generalizing n with
  | ind room ih =>
    -- the order in which they call each other without opening a level
    have primary : P primary room := hprimary fun r hr => ih r hr _
    have others (op : Connective) : P (rest op) room :=
      hrest (fun r hr => ih r hr _) fun r hr => ih r hr _
    have unary : P (operand .and) room := hunary (fun r hr => ih r hr _) primary
    have conjunction : P (chain .and) room := hchain unary (others .and)
    have disjunct : P (operand .or) room := hconjunction conjunction
    match n with
    | .chain .or => exact hchain disjunct (others .or)
    | .chain .and => exact conjunction
    | .rest op => exact others op
    | .operand .or => exact disjunct
    | .operand .and => exact unary
    | .primary => exact primary

/-! ## What is read has a derivation -/

/-- A derivation that fits forms the tokens up to those that are left, and its meaning is `P`. -/
def Nonterminal.Derives (n : Nonterminal) (room : Nat) (tokens left : List Token)
    (P : n.Meaning → Prop) : Prop :=
  ∃ d : Derivation n, kindsOf tokens = d.kinds ++ kindsOf left ∧ d.nesting ≤ room ∧ P d.lower

/-- Whatever the reader for the nonterminal gives has a derivation that fits. -/
def Nonterminal.Sound : Nonterminal → Nat → Prop
  | chain op, room => ∀ tokens e left, op.read room tokens = .ok (e, left) →
    (chain op).Derives room tokens left (· = e)
  | rest op, room => ∀ lhs tokens e left, op.readRest room lhs tokens = .ok (e, left) →
    (rest op).Derives room tokens left (· lhs = e)
  | operand op, room => ∀ tokens e left, op.readOperand room tokens = .ok (e, left) →
    (operand op).Derives room tokens left (· = e)
  | primary, room => ∀ tokens e left, parsePrimary room tokens = .ok (e, left) →
    primary.Derives room tokens left (· = e)

theorem parseValue_eq_ok {tokens left : List Token} {value : String}
    (h : parseValue tokens = .ok (value, left)) :
    ∃ (v : Literal) (span : Span), tokens = ⟨v.token, span⟩ :: left ∧ v.text = value := by
  unfold parseValue at h
  split at h
  · cases h
    exact ⟨.word _, _, rfl, rfl⟩
  · cases h
    exact ⟨.quoted _, _, rfl, rfl⟩
  · cases h

theorem derives_of_parseComparison {label : String} {span : Span} {room : Nat}
    {tokens left : List Token} {e : Expr} (h : parseComparison label tokens = .ok (e, left)) :
    Nonterminal.primary.Derives room (⟨.label label, span⟩ :: tokens) left (· = e) := by
  unfold parseComparison at h
  split at h
  · obtain ⟨⟨value, rest⟩, hv, he⟩ := Except.bind_eq_ok.mp h
    obtain ⟨v, at₂, rfl, rfl⟩ := parseValue_eq_ok hv
    cases he
    exact ⟨.compare label false v, rfl, Nat.zero_le room, rfl⟩
  · obtain ⟨⟨value, rest⟩, hv, he⟩ := Except.bind_eq_ok.mp h
    obtain ⟨v, at₂, rfl, rfl⟩ := parseValue_eq_ok hv
    cases he
    exact ⟨.compare label true v, rfl, Nat.zero_le room, rfl⟩
  · cases h
    exact ⟨.present label, rfl, Nat.zero_le room, rfl⟩

namespace Nonterminal

theorem sound_primary {room : Nat} (hgroup : ∀ r < room, (chain .or).Sound r) :
    primary.Sound room := by
  intro tokens e left h
  unfold parsePrimary at h
  split at h
  · next span inner =>
    split at h
    · cases h
    · next room =>
      obtain ⟨⟨body, rest⟩, hb, he⟩ := Except.bind_eq_ok.mp h
      obtain ⟨d, hk, hn, rfl⟩ := hgroup room (Nat.lt_succ_self room) _ _ _ hb
      dsimp only at he
      split at he
      · cases he
        refine ⟨.group d, ?_, Nat.succ_le_succ hn, rfl⟩
        simp [hk, Derivation.kinds]
      · cases he
  · exact derives_of_parseComparison h
  · cases h

theorem sound_unary {room : Nat} (hnot : ∀ r < room, (operand .and).Sound r)
    (hprimary : primary.Sound room) : (operand .and).Sound room := by
  intro tokens e left h
  change parseUnary room tokens = _ at h
  unfold parseUnary at h
  split at h
  · split at h
    · cases h
    · next room =>
      obtain ⟨⟨arg, rest⟩, ha, he⟩ := Except.bind_eq_ok.mp h
      obtain ⟨d, hk, hn, rfl⟩ := hnot room (Nat.lt_succ_self room) _ _ _ ha
      cases he
      refine ⟨.not d, ?_, Nat.succ_le_succ hn, rfl⟩
      simp [hk, Derivation.kinds]
  · obtain ⟨d, hk, hn, hd⟩ := hprimary _ _ _ h
    exact ⟨.primary d, hk, hn, hd⟩

theorem sound_rest {op : Connective} {room : Nat} (hoperand : ∀ r < room, (operand op).Sound r)
    (hrest : ∀ r < room, (rest op).Sound r) : (rest op).Sound room := by
  intro lhs tokens e left h
  by_cases hop : ∃ span tail, tokens = ⟨op.token, span⟩ :: tail
  · obtain ⟨span, tail, rfl⟩ := hop
    cases room with
    | zero =>
      rw [Connective.readRest_full] at h
      cases h
    | succ room =>
      rw [Connective.readRest_more] at h
      obtain ⟨⟨rhs, mid⟩, hr, ho⟩ := Except.bind_eq_ok.mp h
      obtain ⟨d, hdk, hdn, rfl⟩ := hoperand room (Nat.lt_succ_self room) _ _ _ hr
      obtain ⟨o, hok, hon, ho⟩ := hrest room (Nat.lt_succ_self room) _ _ _ _ ho
      refine ⟨.more d o, ?_, Nat.succ_le_succ (Nat.max_le.mpr ⟨hdn, hon⟩), ho⟩
      simp [hdk, hok, Derivation.kinds]
  · simp only [not_exists] at hop
    rw [Connective.readRest_stop hop] at h
    cases h
    exact ⟨.done, rfl, Nat.zero_le room, rfl⟩

theorem sound_chain {op : Connective} {room : Nat} (hoperand : (operand op).Sound room)
    (hrest : (rest op).Sound room) : (chain op).Sound room := by
  intro tokens e left h
  rw [Connective.read_eq] at h
  obtain ⟨⟨lhs, mid⟩, hf, ho⟩ := Except.bind_eq_ok.mp h
  obtain ⟨d, hdk, hdn, rfl⟩ := hoperand _ _ _ hf
  obtain ⟨o, hok, hon, ho⟩ := hrest _ _ _ _ ho
  refine ⟨.chain d o, ?_, Nat.max_le.mpr ⟨hdn, hon⟩, ho⟩
  simp [hdk, hok, Derivation.kinds]

theorem sound_conjunction {room : Nat} (h : (chain .and).Sound room) :
    (operand .or).Sound room := by
  intro tokens e left hr
  obtain ⟨d, hk, hn, hd⟩ := h tokens e left hr
  exact ⟨.conjunction d, hk, hn, hd⟩

theorem sound (n : Nonterminal) (room : Nat) : n.Sound room :=
  reader_induction sound_chain sound_rest sound_conjunction sound_unary sound_primary n room

end Nonterminal

/-! ## Whole token lists -/

/-- The tokens before the first one that stands for the end, without their places. -/
def beforeEnd (tokens : List Token) : List TokenKind :=
  (kindsOf tokens).takeWhile (· ≠ .endOfInput)

theorem Derivation.endOfInput_notMem_kinds {n : Nonterminal} (d : Derivation n) :
    .endOfInput ∉ d.kinds := by
  induction d with
  | @more op next others ihnext ihothers =>
    cases op <;> simp [kinds, Connective.token, ihnext, ihothers]
  | compare label negated value =>
    cases negated <;> cases value <;> simp [kinds, comparisonSign, Literal.token]
  | _ => simp_all [kinds]

theorem expectEnd_eq_ok_iff {tokens : List Token} :
    expectEnd tokens = .ok () ↔ ∀ k ∈ (kindsOf tokens).head?, k = .endOfInput := by
  unfold expectEnd
  split
  · simp
  · simp
  · next hnil hend =>
    obtain ⟨t, rest, rfl⟩ := List.exists_cons_of_ne_nil hnil
    refine iff_of_false (by simp) fun h => hend t.span rest ?_
    have hk : t.kind = .endOfInput := h t.kind rfl
    rw [← hk]

theorem beforeEnd_of_append {tokens left : List Token} {kinds : List TokenKind}
    (h : kindsOf tokens = kinds ++ kindsOf left) (hk : .endOfInput ∉ kinds)
    (hl : ∀ k ∈ (kindsOf left).head?, k = .endOfInput) : beforeEnd tokens = kinds := by
  rw [beforeEnd, h, List.takeWhile_append_of_pos (by grind)]
  cases hleft : kindsOf left with
  | nil => simp
  | cons k rest =>
    obtain rfl : k = .endOfInput := hl k (by simp [hleft])
    simp

theorem exists_append_beforeEnd (tokens : List Token) :
    ∃ used left, tokens = used ++ left ∧ kindsOf used = beforeEnd tokens ∧
      ∀ k ∈ (kindsOf left).head?, k = .endOfInput := by
  have hsplit := (List.takeWhile_append_dropWhile (p := (· ≠ .endOfInput)) (l := kindsOf tokens)).symm
  obtain ⟨used, left, ht, hu, hl⟩ := kindsOf_eq_append hsplit
  refine ⟨used, left, ht, hu, fun k hk => ?_⟩
  have hne := eq_false_of_mem_head?_dropWhile k (hl ▸ hk)
  simpa using hne

theorem Nonterminal.stops_of_head?_eq_end {n : Nonterminal} {kinds : List TokenKind}
    (h : ∀ k ∈ kinds.head?, k = .endOfInput) : n.Stops kinds := by
  intro k hk
  obtain rfl := h k hk
  cases n <;> rfl

namespace Derivation

/-- What the tokens before the end derive is the result, if its nesting is allowed. -/
theorem parseTokens_eq_ok {tokens : List Token} (d : Derivation (.chain .or))
    (hk : d.kinds = beforeEnd tokens) (hn : d.nesting ≤ maxDepth) :
    parseTokens tokens = .ok d.lower := by
  obtain ⟨used, left, ht, hu, hl⟩ := exists_append_beforeEnd tokens
  have hread : parseOr maxDepth tokens = .ok (d.lower, left) := by
    have := d.reads (hu.trans hk.symm) hn (Nonterminal.stops_of_head?_eq_end hl)
    rwa [← ht] at this
  have hend := expectEnd_eq_ok_iff.mpr hl
  rw [parseTokens, hread]
  simp only [Except.ok_bind, hend]
  rfl

/-- A nesting that is too deep is the only reason to refuse tokens that have a derivation. -/
theorem parseTokens_eq_error {tokens : List Token} (d : Derivation (.chain .or))
    (hk : d.kinds = beforeEnd tokens) (hn : maxDepth < d.nesting) :
    ∃ found position, parseTokens tokens = .error ⟨.shallowerNesting, found, position⟩ := by
  obtain ⟨used, left, ht, hu, hl⟩ := exists_append_beforeEnd tokens
  obtain ⟨before, t, after, -, -, -, hread⟩ :=
    d.runsOut_at (hu.trans hk.symm) hn (Nonterminal.stops_of_head?_eq_end hl) 0
  have hread : parseOr maxDepth (used ++ left) = _ := hread
  rw [ht, parseTokens, hread]
  exact ⟨_, _, rfl⟩

end Derivation

/-- Tokens of the kinds and the end after them, all at the same place. -/
def placed (kinds : List TokenKind) : List Token :=
  kinds.map (⟨·, .emptyAt 0⟩) ++ [.endAt 0]

@[simp] theorem kindsOf_map_emptyAt (kinds : List TokenKind) (offset : Nat) :
    kindsOf (kinds.map (⟨·, .emptyAt offset⟩)) = kinds := by
  rw [kindsOf, List.map_map]
  exact List.map_id _

theorem kindsOf_placed (kinds : List TokenKind) :
    kindsOf (placed kinds) = kinds ++ [.endOfInput] := by
  rw [placed, kindsOf_append, kindsOf_map_emptyAt]
  rfl

theorem Derivation.beforeEnd_of_kindsOf {n : Nonterminal} (d : Derivation n) {tokens : List Token}
    (h : kindsOf tokens = d.kinds ++ [.endOfInput]) : beforeEnd tokens = d.kinds := by
  have hp : kindsOf tokens = d.kinds ++ kindsOf [.endAt 0] := h
  exact beforeEnd_of_append hp d.endOfInput_notMem_kinds fun k hk => (Option.some.inj hk).symm

theorem Derivation.beforeEnd_placed {n : Nonterminal} (d : Derivation n) :
    beforeEnd (placed d.kinds) = d.kinds := d.beforeEnd_of_kindsOf (kindsOf_placed d.kinds)

theorem Derivation.parseTokens_placed (d : Derivation (.chain .or)) (hn : d.nesting ≤ maxDepth) :
    parseTokens (placed d.kinds) = .ok d.lower :=
  d.parseTokens_eq_ok d.beforeEnd_placed.symm hn

theorem derivation_of_parseTokens {tokens : List Token} {e : Expr}
    (h : parseTokens tokens = .ok e) :
    ∃ d : Derivation (.chain .or), d.kinds = beforeEnd tokens ∧ d.nesting ≤ maxDepth ∧
      d.lower = e := by
  obtain ⟨⟨e', left⟩, hr, hf⟩ := Except.bind_eq_ok.mp (Except.mapError_eq_ok.mp h)
  obtain ⟨⟨⟩, he, hf⟩ := Except.bind_eq_ok.mp hf
  cases hf
  obtain ⟨d, hk, hn, hd⟩ := (Nonterminal.chain .or).sound maxDepth tokens _ _ hr
  have hl := expectEnd_eq_ok_iff.mp he
  exact ⟨d, (beforeEnd_of_append hk d.endOfInput_notMem_kinds hl).symm, hn, hd⟩

/-- The parser accepts the token lists whose tokens before the end have a derivation of which every
part is at most `maxDepth` levels deep. There is no other derivation of these tokens, and the
expression is the one that it stands for. -/
theorem parseTokens_eq_ok_iff (tokens : List Token) (e : Expr) :
    parseTokens tokens = .ok e ↔
      ∃ d : Derivation (.chain .or), (∀ d', d'.kinds = beforeEnd tokens ↔ d' = d) ∧
        d.nesting ≤ maxDepth ∧ d.lower = e := by
  constructor
  · intro h
    obtain ⟨d, hk, hn, hd⟩ := derivation_of_parseTokens h
    refine ⟨d, fun d' => ⟨fun hk' => ?_, fun he => he ▸ hk⟩, hn, hd⟩
    exact Derivation.kinds_injective (hk'.trans hk.symm)
  · rintro ⟨d, hd, hn, rfl⟩
    exact d.parseTokens_eq_ok ((hd d).mpr rfl) hn

end MicroFrontends
