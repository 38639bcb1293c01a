import MicroFrontends.Proofs.Selector.Grammar

/-!
# At which level the tokens of a derivation are

The parser counts levels along the tokens. `Derivation.nesting` is the largest level of a
derivation, and here is where in its tokens the levels are:

* `TokenKind.opensLevel` : the tokens that open a level;
* `Derivation.levels` : the level of each token, of which none is above the nesting
  (`Derivation.levels_le`);
* `FirstAbove limit levels count` : where levels first go above a limit.
-/

namespace MicroFrontends

/-- The tokens that open a level: the inside of a group, the operand of a negation or the next
operand of a chain. -/
def TokenKind.opensLevel : TokenKind → Bool
  | not | and | or | lparen => true
  | _ => false

theorem Connective.opensLevel_token (op : Connective) : op.token.opensLevel = true := by
  cases op <;> rfl

/-! ## Where levels go above a limit -/

/-- The first of the levels above a limit comes after so many others, and it is the next one. -/
def FirstAbove (limit : Nat) (levels : List Nat) (count : Nat) : Prop :=
  ∃ lower higher, levels = lower ++ (limit + 1) :: higher ∧ lower.length = count ∧
    ∀ l ∈ lower, l ≤ limit

namespace FirstAbove

variable {limit count : Nat} {levels : List Nat}

theorem here (limit : Nat) (levels : List Nat) : FirstAbove limit ((limit + 1) :: levels) 0 :=
  ⟨[], levels, rfl, rfl, List.forall_mem_nil _⟩

theorem append (h : FirstAbove limit levels count) (more : List Nat) :
    FirstAbove limit (levels ++ more) count := by
  obtain ⟨lower, higher, rfl, hc, hl⟩ := h
  exact ⟨lower, higher ++ more, by simp, hc, hl⟩

theorem prepend {before : List Nat} (hb : ∀ l ∈ before, l ≤ limit)
    (h : FirstAbove limit levels count) :
    FirstAbove limit (before ++ levels) (before.length + count) := by
  obtain ⟨lower, higher, rfl, rfl, hl⟩ := h
  refine ⟨before ++ lower, higher, by simp, List.length_append, ?_⟩
  exact List.forall_mem_append.mpr ⟨hb, hl⟩

theorem cons {level : Nat} (hb : level ≤ limit) (h : FirstAbove limit levels count) :
    FirstAbove limit (level :: levels) (count + 1) := by
  have hlevel : ∀ l ∈ [level], l ≤ limit := List.forall_mem_singleton.mpr hb
  exact Nat.add_comm count 1 ▸ h.prepend hlevel

end FirstAbove

/-! ## The levels of a derivation -/

namespace Derivation

/-- The levels of the tokens of a derivation that is itself at a level. A negation, an opening
parenthesis and an operator of a chain are at the level that they open. -/
def levels : {n : Nonterminal} → Derivation n → Nat → List Nat
  | _, chain first others, level => first.levels level ++ others.levels level
  | _, done, _ => []
  | _, more next others, level =>
    (level + 1) :: (next.levels (level + 1) ++ others.levels (level + 1))
  | _, conjunction operands, level => operands.levels level
  | _, primary inner, level => inner.levels level
  | _, not arg, level => (level + 1) :: arg.levels (level + 1)
  | _, group body, level => (level + 1) :: (body.levels (level + 1) ++ [level])
  | _, present _, level => [level]
  | _, compare _ _ _, level => [level, level, level]

theorem length_levels {n : Nonterminal} (d : Derivation n) (level : Nat) :
    (d.levels level).length = d.kinds.length := by
  induction d generalizing level with
  | _ => simp_all [levels, kinds]

theorem levels_le {n : Nonterminal} (d : Derivation n) (level : Nat) :
    ∀ l ∈ d.levels level, l ≤ level + d.nesting := by
  induction d generalizing level with
  | chain first others ihfirst ihothers =>
    intro l hl
    simp only [levels, List.mem_append] at hl
    simp only [nesting]
    rcases hl with hl | hl
    · have := ihfirst level l hl; omega
    · have := ihothers level l hl; omega
  | more next others ihnext ihothers =>
    intro l hl
    simp only [levels, List.mem_cons, List.mem_append] at hl
    simp only [nesting]
    rcases hl with rfl | hl | hl
    · omega
    · have := ihnext (level + 1) l hl; omega
    · have := ihothers (level + 1) l hl; omega
  | not arg ih =>
    intro l hl
    simp only [levels, List.mem_cons] at hl
    simp only [nesting]
    rcases hl with rfl | hl
    · omega
    · have := ih (level + 1) l hl; omega
  | group body ih =>
    intro l hl
    simp only [levels, List.mem_cons, List.mem_append, List.not_mem_nil, or_false] at hl
    simp only [nesting]
    rcases hl with rfl | hl | rfl
    · omega
    · have := ih (level + 1) l hl; omega
    · omega
  | conjunction operands ih => exact ih level
  | primary inner ih => exact ih level
  | done => exact List.forall_mem_nil _
  | present label => simp [levels]
  | compare label negated value => simp [levels]

end Derivation
end MicroFrontends
