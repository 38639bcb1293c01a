import MicroFrontends.Proofs.Selector.Reading

/-!
# How high the trees of parsed expressions are

The parser counts the levels around the token that it reads. An operator of a chain is counted for
the operands after it, but in the tree it also stands above those before it, which were read when it
was not yet known. So the limit on the nesting does not limit the height of the tree to the same
number.

* `Expr.height` : the operators on the longest path down the tree;
* `Derivation.height` : the same, read off the derivation (`Derivation.height_lower`);
* `heightLimit` : the largest height for each nonterminal and nesting (`Derivation.height_le`),
  which the derivations of `Derivation.towering` attain;
* `height_of_parseTokens` : which parsed expressions are higher than `maxDepth`, and by how much at
  most, which some attain (`exists_height_eq`);
* `height_gt_maxDepth` : 256 negations and one `&&` after them are too high.
-/

namespace MicroFrontends

namespace Expr

/-- The expression compares a label with a value. -/
def isComparison : Expr → Bool
  | equals _ _ => true
  | _ => false

/-- The number of operators on the longest path from the root to a leaf. The negation of a
comparison is a leaf, as `!=` is written in one. -/
def height : Expr → Nat
  | present _ | equals _ _ | not (equals _ _) => 0
  | not arg => arg.height + 1
  | and lhs rhs | or lhs rhs => max lhs.height rhs.height + 1

theorem height_not (e : Expr) : (not e).height = if e.isComparison then 0 else e.height + 1 := by
  cases e <;> rfl

end Expr

theorem Connective.height_join (op : Connective) (lhs rhs : Expr) :
    (op.join lhs rhs).height = max lhs.height rhs.height + 1 := by
  cases op <;> rfl

namespace Derivation

/-- The number of operators on the longest path. The path to an operand of a chain goes through all
operators of the chain that follow the operand and through the one before it. -/
def height : {n : Nonterminal} → Derivation n → Nat
  | _, chain first others => max (first.height + others.operators) others.height
  | _, done => 0
  | _, more next others => max (next.height + others.operators + 1) others.height
  | _, conjunction operands => operands.height
  | _, primary inner => inner.height
  | _, not arg => if Expr.isComparison arg.lower then 0 else arg.height + 1
  | _, group body => body.height
  | _, present _ => 0
  | _, compare _ _ _ => 0

/-- The height of a derivation is that of its meaning. The rest of a chain is put on top of the
expression that it adds its operands to. -/
def HeightIsLower : {n : Nonterminal} → Derivation n → Prop
  | .rest _, d => ∀ lhs, (d.lower lhs).height = max (lhs.height + d.operators) d.height
  | .chain _, d | .operand _, d | .primary, d => Expr.height d.lower = d.height

theorem height_lower {n : Nonterminal} (d : Derivation n) : d.HeightIsLower := by
  induction d with
  | chain first others ihfirst ihothers =>
    show (others.lower first.lower).height = _
    rw [ihothers, ihfirst]
    rfl
  | done => exact fun lhs => (Nat.max_zero _).symm
  | @more op next others ihnext ihothers =>
    intro lhs
    show (others.lower (op.join lhs next.lower)).height = _
    rw [ihothers, Connective.height_join, ihnext]
    simp only [operators, height]
    omega
  | conjunction operands ih => exact ih
  | primary inner ih => exact ih
  | not arg ih =>
    show (Expr.not arg.lower).height = _
    rw [Expr.height_not, ih]
    rfl
  | group body ih => exact ih
  | present label => rfl
  | compare label negated value => cases negated <;> rfl

end Derivation

/-! ## The largest height -/

/-- The largest height of an operand of `&&` that nests so deep. One more level is a negation, or it
is a group, in which two chains can use all the levels that are left. -/
def unaryHeightLimit : Nat → Nat
  | 0 => 0
  | nesting + 1 => unaryHeightLimit nesting + max 1 (2 * nesting)

theorem unaryHeightLimit_mono {a b : Nat} (h : a ≤ b) : unaryHeightLimit a ≤ unaryHeightLimit b := by
  induction h with
  | refl => exact Nat.le_refl _
  | step h ih => exact Nat.le_trans ih (Nat.le_add_right _ _)

theorem unaryHeightLimit_succ (nesting : Nat) :
    unaryHeightLimit (nesting + 1) = nesting * (nesting + 1) + 1 := by
  induction nesting with
  | zero => rfl
  | succ n ih =>
    rw [unaryHeightLimit, ih, Nat.mul_succ (n + 1), Nat.succ_mul n (n + 1)]
    omega

/-- The largest height for a nonterminal and a nesting. -/
def heightLimit : Nonterminal → Nat → Nat
  | .primary, nesting | .operand .and, nesting => unaryHeightLimit nesting
  | .operand .or, nesting | .chain .and, nesting | .rest .and, nesting =>
    unaryHeightLimit nesting + nesting
  | .chain .or, nesting | .rest .or, nesting => unaryHeightLimit nesting + 2 * nesting

theorem heightLimit_chain (op : Connective) (nesting : Nat) :
    heightLimit (.chain op) nesting = heightLimit (.operand op) nesting + nesting := by
  cases op <;> simp only [heightLimit]
  omega

theorem heightLimit_rest (op : Connective) (nesting : Nat) :
    heightLimit (.rest op) nesting = heightLimit (.operand op) nesting + nesting := by
  cases op <;> simp only [heightLimit]
  omega

theorem heightLimit_operand_mono (op : Connective) {a b : Nat} (h : a ≤ b) :
    heightLimit (.operand op) a ≤ heightLimit (.operand op) b := by
  have := unaryHeightLimit_mono h
  cases op <;> simp only [heightLimit] <;> omega

theorem heightLimit_or {nesting : Nat} (h : nesting ≤ maxDepth) :
    heightLimit (.chain .or) nesting ≤ maxDepth * (maxDepth + 1) + 1 := by
  have hm : unaryHeightLimit nesting ≤ 255 * 256 + 1 :=
    Nat.le_trans (unaryHeightLimit_mono h) (Nat.le_of_eq (unaryHeightLimit_succ 255))
  simp only [heightLimit, maxDepth] at h ⊢
  omega

namespace Derivation

theorem height_le {n : Nonterminal} (d : Derivation n) : d.height ≤ heightLimit n d.nesting := by
  induction d with
  | @chain op first others ihfirst ihothers =>
    -- the operators after the first operand take no level from it, so both limits add up
    have hops := others.operators_le_nesting
    have hf := heightLimit_operand_mono op (Nat.le_max_left first.nesting others.nesting)
    have ho := heightLimit_operand_mono op (Nat.le_max_right first.nesting others.nesting)
    rw [heightLimit_rest] at ihothers
    rw [heightLimit_chain]
    simp only [height, nesting]
    omega
  | done => exact Nat.zero_le _
  | @more op next others ihnext ihothers =>
    have hops := others.operators_le_nesting
    have hn := heightLimit_operand_mono op
      (Nat.le_add_right_of_le (k := 1) (Nat.le_max_left next.nesting others.nesting))
    have ho := heightLimit_operand_mono op
      (Nat.le_add_right_of_le (k := 1) (Nat.le_max_right next.nesting others.nesting))
    rw [heightLimit_rest] at ihothers ⊢
    simp only [height, nesting]
    omega
  | conjunction operands ih => exact ih
  | primary inner ih => exact ih
  | not arg ih =>
    simp only [height, nesting, heightLimit, unaryHeightLimit] at ih ⊢
    split <;> omega
  | group body ih =>
    simp only [height, nesting, heightLimit, unaryHeightLimit] at ih ⊢
    omega
  | present label => exact Nat.zero_le _
  | compare label negated value => exact Nat.zero_le _

/-! ## Derivations of the largest height -/

/-- The operand with so many operators of both kinds after it. -/
def towering (operand : Derivation (.operand .and)) (count : Nat) : Derivation (.chain .or) :=
  chain (conjunction (chain operand (repeated label count)))
    (repeated (conjunction (chain label done)) count)

/-- Operands of the largest height. -/
def tallest : Nat → Derivation (.operand .and)
  | 0 => label
  | 1 => not label
  | nesting + 2 => primary (group (towering (tallest (nesting + 1)) (nesting + 1)))

theorem height_repeated {op : Connective} {operand : Derivation (.operand op)}
    (h : operand.height = 0) (count : Nat) : (repeated operand count).height = count := by
  induction count with
  | zero => rfl
  | succ count ih =>
    simp only [repeated, height, operators_repeated]
    omega

theorem nesting_towering (operand : Derivation (.operand .and)) (count : Nat) :
    (towering operand count).nesting = max operand.nesting count := by
  have hand : label.nesting = 0 := rfl
  have hor : (conjunction (chain label done)).nesting = 0 := rfl
  simp only [towering, nesting, nesting_repeated hand, nesting_repeated hor]
  omega

theorem height_towering (operand : Derivation (.operand .and)) (count : Nat) :
    (towering operand count).height = operand.height + 2 * count := by
  have hand : label.height = 0 := rfl
  have hor : (conjunction (chain label done)).height = 0 := rfl
  simp only [towering, height, operators_repeated, height_repeated hand, height_repeated hor]
  omega

theorem nesting_tallest : ∀ n, (tallest n).nesting = n
  | 0 | 1 => rfl
  | n + 2 => by
    simp only [tallest, nesting, nesting_towering, nesting_tallest (n + 1)]
    omega

theorem height_tallest : ∀ n, (tallest n).height = unaryHeightLimit n
  | 0 | 1 => rfl
  | n + 2 => by
    simp only [tallest, height, height_towering, height_tallest (n + 1), unaryHeightLimit]
    omega

/-- So many negations of a label. -/
def negations : Nat → Derivation (.operand .and)
  | 0 => label
  | count + 1 => not (negations count)

theorem nesting_negations (count : Nat) : (negations count).nesting = count := by
  induction count with
  | zero => rfl
  | succ count ih => exact congrArg (· + 1) ih

theorem height_negations (count : Nat) : (negations count).height = count := by
  induction count with
  | zero => rfl
  | succ count ih => cases count <;> exact congrArg (· + 1) ih

/-- So many negations of a label as the first operand of `&&`. -/
def negatedFirst (count : Nat) : Derivation (.chain .or) :=
  chain (conjunction (chain (negations count) (more label done))) done

theorem nesting_negatedFirst (count : Nat) : (negatedFirst count).nesting = max count 1 := by
  have hl : label.nesting = 0 := rfl
  simp only [negatedFirst, nesting, nesting_negations, hl]
  omega

theorem height_negatedFirst (count : Nat) : (negatedFirst count).height = count + 1 := by
  have hl : label.height = 0 := rfl
  simp only [negatedFirst, height, height_negations, operators, hl]
  omega

end Derivation

/-! ## Parsed expressions -/

/-- The height of a parsed expression is at most `maxDepth` exactly if no path down the derivation
of its tokens has more operators. The limit on the nesting ensures a limit on the height, which is
about `maxDepth` times as large. -/
theorem height_of_parseTokens {tokens : List Token} {e : Expr} (h : parseTokens tokens = .ok e) :
    (∀ d : Derivation (.chain .or), d.kinds = beforeEnd tokens →
      (e.height ≤ maxDepth ↔ d.height ≤ maxDepth)) ∧
      e.height ≤ maxDepth * (maxDepth + 1) + 1 := by
  obtain ⟨d, hk, hn, rfl⟩ := derivation_of_parseTokens h
  have hd : Expr.height d.lower = d.height := d.height_lower
  rw [hd]
  refine ⟨fun d' hd' => ?_, Nat.le_trans d.height_le (heightLimit_or hn)⟩
  obtain rfl : d' = d := Derivation.kinds_injective (hd'.trans hk.symm)
  exact Iff.rfl

theorem height_of_parseTokens_negatedFirst :
    parseTokens (placed (Derivation.negatedFirst 1).kinds) =
      .ok (.and (.not (.present "a")) (.present "a")) ∧
      (Expr.and (.not (.present "a")) (.present "a")).height ≤ maxDepth := by
  have h := (Derivation.negatedFirst 1).parseTokens_placed (by decide)
  have hk := (Derivation.negatedFirst 1).beforeEnd_placed
  exact ⟨h, ((height_of_parseTokens h).1 _ hk.symm).mpr (by decide)⟩

/-- The 256 negations of the first operand are read before the `&&` that stands above them. -/
theorem height_gt_maxDepth :
    ¬ ∀ tokens e, parseTokens tokens = .ok e → e.height ≤ maxDepth := by
  intro h
  let d := Derivation.negatedFirst maxDepth
  have hn : d.nesting ≤ maxDepth := Nat.le_of_eq (Derivation.nesting_negatedFirst maxDepth)
  have hh : Expr.height d.lower = maxDepth + 1 :=
    d.height_lower.trans (Derivation.height_negatedFirst maxDepth)
  have hle := h _ _ (d.parseTokens_placed hn)
  rw [hh] at hle
  exact absurd hle (Nat.not_succ_le_self maxDepth)

/-- No smaller limit on the height holds of all parsed expressions. -/
theorem exists_height_eq : ∃ tokens e, parseTokens tokens = .ok e ∧
    e.height = maxDepth * (maxDepth + 1) + 1 := by
  let d := Derivation.towering (.tallest maxDepth) maxDepth
  have hn : d.nesting = maxDepth := by
    rw [Derivation.nesting_towering, Derivation.nesting_tallest, Nat.max_self]
  have hh : d.height = maxDepth * (maxDepth + 1) + 1 := by
    rw [Derivation.height_towering, Derivation.height_tallest]
    exact congrArg (· + 2 * maxDepth) (unaryHeightLimit_succ 255)
  exact ⟨_, _, d.parseTokens_placed (Nat.le_of_eq hn), d.height_lower.trans hh⟩

end MicroFrontends
