import MicroFrontends.Proofs.Selector.Machine

/-!
# How deeply the parser's calls nest

The counter of the parser follows the activations that wait: from the outermost to the innermost one
it goes up by one with each negation and each group, and never down. So the limit on the counter is
a limit on the recursion too.

* `Machine.Waits` : the stack that is there when an activation begins, with the counter and the
  number of tokens that are left then;
* `Machine.unaryStarts` : the activations that read operands of `&&`, each given by the number of
  tokens that were left when it began;
* `Machine.Regular` : what holds of every state, as it does before the first token and each step
  keeps it (`regular_step`);
* `Machine.Bounded` : what this says about the recursion (`bounded_iterate`);
* `Machine.potential` : how many steps are left at most (`potential_step_lt`);
* `parseWithin` : the parser with a limit on the activations;
* `parser_bounded` : the parser comes to its answer within the bounds, so it does with this limit.
-/

namespace MicroFrontends

namespace Machine

/-! ## The activations that wait -/

/-- The activation reads an operand of `&&`. -/
def Frame.isUnary (f : Frame) : Bool :=
  match f.pending with
  | .negation | .plain => true
  | .operand .. | .group => false

/-- The numbers of tokens that were left when the waiting activations that read an operand of `&&`
began, that of the innermost one first. -/
def startsOf (stack : List Frame) : List Nat := (stack.filter Frame.isUnary).map Frame.left

section
variable {start : Nat} {stack : List Frame}

@[simp] theorem startsOf_nil : startsOf [] = [] := rfl

@[simp] theorem startsOf_operand {op : Connective} {level : Nat} {lhs? : Option Expr} :
    startsOf (⟨.operand op level lhs?, start⟩ :: stack) = startsOf stack := rfl

@[simp] theorem startsOf_negation :
    startsOf (⟨.negation, start⟩ :: stack) = start :: startsOf stack := rfl

@[simp] theorem startsOf_plain : startsOf (⟨.plain, start⟩ :: stack) = start :: startsOf stack := rfl

@[simp] theorem startsOf_group : startsOf (⟨.group, start⟩ :: stack) = startsOf stack := rfl

end

/-- The same of all activations that read an operand of `&&`, with the one that begins next. -/
def unaryStarts (m : Machine) : List Nat :=
  match m.control with
  | .call .unary => m.tokens.length :: startsOf m.stack
  | _ => startsOf m.stack

/-- The stack when an activation of the routine begins, with the counter at `depth` and `left`
tokens left. -/
inductive Waits : Routine → (depth left : Nat) → List Frame → Prop where
  | bottom {left : Nat} : Waits (.chain .or) 0 left []
  | operand {op : Connective} {depth level left start outer : Nat} {lhs? : Option Expr}
      {stack : List Frame} (hlevel : level ≤ depth) (hleft : left ≤ start) (hstart : start ≤ outer)
      (h : Waits (.chain op) level outer stack) :
      Waits (.operand op) depth left (⟨.operand op level lhs?, start⟩ :: stack)
  | negation {depth left start : Nat} {stack : List Frame} (hleft : left < start)
      (h : Waits .unary depth start stack) :
      Waits .unary (depth + 1) left (⟨.negation, start⟩ :: stack)
  | plain {depth left : Nat} {stack : List Frame} (h : Waits .unary depth left stack) :
      Waits .primary depth left (⟨.plain, left⟩ :: stack)
  | group {depth left start : Nat} {stack : List Frame} (hleft : left < start)
      (h : Waits .primary depth start stack) :
      Waits (.chain .or) (depth + 1) left (⟨.group, start⟩ :: stack)

namespace Routine

/-- How many activations wait for one of the routine within the same level. -/
def frames : Routine → Nat
  | chain .or => 0
  | chain .and => 1
  | unary => 2
  | primary => 3

/-- How many of them read an operand of `&&`. -/
def unaries : Routine → Nat
  | primary => 1
  | _ => 0

theorem frames_operand (op : Connective) : (operand op).frames = (chain op).frames + 1 := by
  cases op <;> rfl

theorem unaries_operand (op : Connective) : (operand op).unaries = 0 := by
  cases op <;> rfl

theorem frames_le (r : Routine) : r.frames ≤ 3 := by
  cases r with
  | chain op => cases op <;> simp [frames]
  | _ => simp [frames]

theorem unaries_le (r : Routine) : r.unaries ≤ 1 := by
  cases r <;> simp [unaries]

end Routine

namespace Waits

variable {r : Routine} {depth left : Nat} {stack : List Frame}

/-- Each level has room for four activations that wait. -/
theorem length_stack_le (h : Waits r depth left stack) :
    stack.length ≤ 4 * depth + r.frames := by
  induction h with
  | bottom => simp
  | operand hlevel hleft hstart h ih =>
    rw [Routine.frames_operand, List.length_cons]
    omega
  | negation hleft h ih =>
    simp only [Routine.frames, List.length_cons] at ih ⊢
    omega
  | plain h ih =>
    simp only [Routine.frames, List.length_cons] at ih ⊢
    omega
  | group hleft h ih =>
    simp only [Routine.frames, List.length_cons] at ih ⊢
    omega

/-- Between two activations that read an operand of `&&` a level is opened. -/
theorem length_startsOf_le (h : Waits r depth left stack) :
    (startsOf stack).length ≤ depth + r.unaries := by
  induction h with
  | bottom => simp
  | operand hlevel hleft hstart h ih =>
    rw [Routine.unaries_operand, startsOf_operand]
    simp only [Routine.unaries] at ih
    omega
  | negation hleft h ih =>
    simp only [Routine.unaries, startsOf_negation, List.length_cons] at ih ⊢
    omega
  | plain h ih =>
    simp only [Routine.unaries, startsOf_plain, List.length_cons] at ih ⊢
    omega
  | group hleft h ih =>
    simp only [Routine.unaries, startsOf_group] at ih ⊢
    omega

/-- An activation begins with fewer tokens than one around it that reads an operand of `&&`, unless
it is the first that this one calls. -/
theorem lt_of_mem_startsOf (h : Waits r depth left stack) :
    ∀ s ∈ startsOf stack, left < s + r.unaries := by
  induction h with
  | bottom => simp
  | operand hlevel hleft hstart h ih =>
    intro s hs
    have := ih s hs
    rw [Routine.unaries_operand]
    simp only [Routine.unaries] at this
    omega
  | negation hleft h ih =>
    simp only [startsOf_negation, List.forall_mem_cons, Routine.unaries, Nat.add_zero] at ih ⊢
    exact ⟨hleft, fun s hs => Nat.lt_trans hleft (ih s hs)⟩
  | plain h ih =>
    simp only [startsOf_plain, List.forall_mem_cons, Routine.unaries, Nat.add_zero] at ih ⊢
    exact ⟨Nat.lt_succ_self _, fun s hs => Nat.lt_succ_of_lt (ih s hs)⟩
  | group hleft h ih =>
    simp only [startsOf_group, Routine.unaries, Nat.add_zero] at ih ⊢
    exact fun s hs => Nat.lt_of_lt_of_le hleft (Nat.le_of_lt_succ (ih s hs))

theorem pairwise_startsOf (h : Waits r depth left stack) : (startsOf stack).Pairwise (· < ·) := by
  induction h with
  | bottom => exact .nil
  | operand hlevel hleft hstart h ih => exact ih
  | negation hleft h ih => exact .cons h.lt_of_mem_startsOf ih
  | plain h ih => exact .cons h.lt_of_mem_startsOf ih
  | group hleft h ih => exact ih

theorem le_left (h : Waits r depth left stack) : ∀ f ∈ stack, left ≤ f.left := by
  induction h with
  | bottom => exact List.forall_mem_nil _
  | operand hlevel hleft hstart h ih =>
    exact List.forall_mem_cons.mpr ⟨hleft, fun f hf => by have := ih f hf; omega⟩
  | negation hleft h ih =>
    exact List.forall_mem_cons.mpr ⟨Nat.le_of_lt hleft, fun f hf => by have := ih f hf; omega⟩
  | plain h ih => exact List.forall_mem_cons.mpr ⟨Nat.le_refl _, ih⟩
  | group hleft h ih =>
    exact List.forall_mem_cons.mpr ⟨Nat.le_of_lt hleft, fun f hf => by have := ih f hf; omega⟩

end Waits

/-! ## What holds of every state -/

/-- The stack is one that an activation begins with, and the counter is within its limit, up to the
one step that refuses a token for its level. An expression that is given has taken a token since the
activation that gives it began. -/
def Regular (m : Machine) : Prop :=
  match m.control with
  | .call r => m.depth ≤ maxDepth ∧ Waits r m.depth m.tokens.length m.stack
  | .give _ => m.depth ≤ maxDepth ∧ ∃ r left, m.tokens.length < left ∧ Waits r m.depth left m.stack
  | .accepted _ | .refused _ =>
    ∃ r left, m.depth + r.unaries ≤ maxDepth + 1 ∧ Waits r m.depth left m.stack
  | .underflow => False

theorem regular_start (tokens : List Token) : (start tokens).Regular := ⟨Nat.zero_le _, .bottom⟩

variable {m : Machine} {r : Routine} {depth left : Nat} {tokens : List Token} {stack : List Frame}

theorem regular_descend {p : Pending} (hd : m.depth ≤ maxDepth) (hr : r.unaries = 0)
    (h : Waits r (m.depth + 1) m.tokens.tail.length (⟨p, m.tokens.length⟩ :: m.stack)) :
    (m.descend p r).Regular := by
  by_cases hlt : m.depth < maxDepth
  · rw [descend_of_lt hlt]
    exact ⟨hlt, h⟩
  · have hfull : maxDepth < m.depth + 1 := by omega
    simp only [descend, if_pos hfull, Regular]
    exact ⟨r, _, by omega, h⟩

theorem regular_settle {reading : Reading} (hd : m.depth ≤ maxDepth)
    (h : Waits r m.depth left m.stack) (hleft : (leftOf reading).length < left) :
    (m.settle reading).Regular := by
  cases reading with
  | ok p => exact ⟨hd, r, left, hleft, h⟩
  | error b => exact ⟨r, left, Nat.add_le_add hd r.unaries_le, h⟩

theorem length_leftOf_le {α : Type} {read : List Token → Except Blame (α × List Token)}
    (h : LooksAhead read) (tokens : List Token) :
    (leftOf (read tokens)).length ≤ tokens.length := by
  obtain ⟨used, ht, -⟩ := h tokens
  have := congrArg List.length ht
  rw [List.length_append] at this
  omega

theorem regular_enter (hd : m.depth ≤ maxDepth) (h : Waits r m.depth m.tokens.length m.stack) :
    (m.enter r).Regular := by
  cases r with
  | chain op => exact ⟨hd, .operand (Nat.le_refl _) (Nat.le_refl _) (Nat.le_refl _) h⟩
  | unary =>
    by_cases hk : nextKind m.tokens = .not
    · obtain ⟨span, tail, ht⟩ := eq_cons_of_nextKind hk (by simp)
      rw [enter, if_pos hk]
      exact regular_descend hd rfl (.negation (by simp [ht]) h)
    · rw [enter, if_neg hk]
      exact ⟨hd, .plain h⟩
  | primary =>
    simp only [enter]
    split
    · next span tail ht =>
      refine regular_descend hd rfl (.group ?_ h)
      simp [ht]
    · next label span tail ht =>
      refine regular_settle hd h ?_
      have := length_leftOf_le (parseComparison_looksAhead label) tail
      simp only [ht, List.length_cons]
      omega
    · exact ⟨.primary, _, Nat.add_le_add_right hd 1, h⟩

theorem regular_resume {tokens : List Token} {f : Frame} {c : Control} {e : Expr}
    (hd : depth ≤ maxDepth) (hleft : tokens.length < left) (h : Waits r depth left (f :: stack)) :
    (resume ⟨tokens, depth, stack, c⟩ e f.pending).Regular := by
  cases h with
  | @operand op depth level left start outer lhs? stack hlevel hleft' hstart h =>
    have houter : tokens.length < outer := by omega
    by_cases hop : nextKind tokens = op.token
    · obtain ⟨span, tail, rfl⟩ := eq_cons_of_nextKind hop op.token_ne_endOfInput
      simp only [resume, if_pos hop]
      exact regular_descend hd (Routine.unaries_operand op)
        (.operand (Nat.le_succ_of_le hlevel) (Nat.le_succ _) (Nat.le_of_lt houter) h)
    · simp only [resume, if_neg hop]
      exact ⟨Nat.le_trans hlevel hd, _, outer, houter, h⟩
  | @negation depth left start stack hleft' h =>
    have hgiven : (leftOf (.ok (Expr.not e, tokens))).length < start := Nat.lt_trans hleft hleft'
    exact regular_settle (m := ⟨tokens, depth, stack, c⟩) (Nat.le_of_succ_le hd) h hgiven
  | plain h => exact ⟨hd, _, _, hleft, h⟩
  | @group depth left start stack hleft' h =>
    have hclose := length_leftOf_le (closeGroup_looksAhead e) tokens
    have hgiven : (leftOf (closeGroup e tokens)).length < start := by omega
    exact regular_settle (m := ⟨tokens, depth, stack, c⟩) (Nat.le_of_succ_le hd) h hgiven

theorem regular_finish (e : Expr) (hd : m.depth ≤ maxDepth) (h : Waits r m.depth left m.stack) :
    (m.finish e).Regular := by
  have hr := Nat.add_le_add hd r.unaries_le
  unfold finish
  split
  · exact ⟨r, left, hr, h⟩
  · exact ⟨r, left, hr, h⟩

theorem regular_step (h : m.Regular) : m.step.Regular := by
  obtain ⟨tokens, depth, stack, control⟩ := m
  cases control with
  | call r => exact regular_enter h.1 h.2
  | give e =>
    obtain ⟨hd, r, left, hleft, hw⟩ := h
    cases stack with
    | nil => exact regular_finish e hd hw
    | cons f stack => exact regular_resume hd hleft hw
  | accepted e => exact h
  | refused b => exact h
  | underflow => exact h

theorem regular_iterate (tokens : List Token) (n : Nat) : (step^[n] (start tokens)).Regular := by
  induction n with
  | zero => exact regular_start tokens
  | succ n ih =>
    rw [Function.iterate_succ_apply']
    exact regular_step ih

/-! ## The bounds -/

/-- The recursion is within bounds, and the tokens that are left get fewer. -/
structure Bounded (m : Machine) : Prop where
  depth_le : m.depth ≤ maxDepth + 1
  /-- The counter is never counted down below zero. -/
  no_underflow : m.control ≠ .underflow
  /-- All activations that wait. -/
  length_stack_le : m.stack.length ≤ 4 * (maxDepth + 1) + 3
  /-- The activations that read an operand of `&&`. -/
  length_unaryStarts_le : m.unaryStarts.length ≤ maxDepth + 1
  /-- Each of them has begun with fewer tokens than those around it. -/
  pairwise_unaryStarts : m.unaryStarts.Pairwise (· < ·)
  /-- An activation that is given an expression has fewer tokens left than when it began and, if it
  reads a chain, than when its loop last came to an operand. -/
  given_lt : ∀ e, m.control = .give e → ∀ f ∈ m.stack, m.tokens.length < f.left

/-- The bounds that rest on the stack alone. -/
theorem Waits.bounds (h : Waits r depth left stack) (hd : depth + r.unaries ≤ maxDepth + 1) :
    stack.length ≤ 4 * (maxDepth + 1) + 3 ∧ (startsOf stack).length ≤ maxDepth + 1 := by
  have hlength := h.length_stack_le
  have hstarts := h.length_startsOf_le
  have hframes := r.frames_le
  omega

theorem Regular.bounded (h : m.Regular) : m.Bounded := by
  obtain ⟨tokens, depth, stack, control⟩ := m
  cases control with
  | call r =>
    obtain ⟨hd, hw⟩ := h
    obtain ⟨hlength, hstarts⟩ := hw.bounds (Nat.add_le_add hd r.unaries_le)
    refine ⟨Nat.le_succ_of_le hd, nofun, hlength, ?_, ?_, nofun⟩
    · cases r with
      | unary => exact Nat.succ_le_succ (Nat.le_trans hw.length_startsOf_le hd)
      | _ => exact hstarts
    · cases r with
      | unary => exact .cons hw.lt_of_mem_startsOf hw.pairwise_startsOf
      | _ => exact hw.pairwise_startsOf
  | give e =>
    obtain ⟨hd, r, left, hleft, hw⟩ := h
    obtain ⟨hlength, hstarts⟩ := hw.bounds (Nat.add_le_add hd r.unaries_le)
    exact ⟨Nat.le_succ_of_le hd, nofun, hlength, hstarts, hw.pairwise_startsOf,
      fun _ _ f hf => Nat.lt_of_lt_of_le hleft (hw.le_left f hf)⟩
  | accepted e =>
    obtain ⟨r, left, hd, hw⟩ := h
    obtain ⟨hlength, hstarts⟩ := hw.bounds hd
    exact ⟨Nat.le_of_add_right_le hd, nofun, hlength, hstarts, hw.pairwise_startsOf, nofun⟩
  | refused b =>
    obtain ⟨r, left, hd, hw⟩ := h
    obtain ⟨hlength, hstarts⟩ := hw.bounds hd
    exact ⟨Nat.le_of_add_right_le hd, nofun, hlength, hstarts, hw.pairwise_startsOf, nofun⟩
  | underflow => exact h.elim

/-! ## The steps come to an end -/

/-- How many steps a call of the routine takes at most before it passes a token, two for each
activation that waits then. -/
def Routine.steps : Routine → Nat
  | .chain .or => 7
  | .chain .and => 5
  | .unary => 3
  | .primary => 1

/-- How many steps are left at most. A token allows for the calls that lead to the next one and for
the returns from them. -/
def potential (m : Machine) : Nat :=
  match m.control with
  | .call r => 8 * m.tokens.length + m.stack.length + r.steps
  | .give _ => 8 * m.tokens.length + m.stack.length + 1
  | .accepted _ | .refused _ | .underflow => 0

theorem Routine.steps_operand (op : Connective) : (operand op).steps + 2 = (chain op).steps := by
  cases op <;> rfl

theorem Routine.steps_le (r : Routine) : r.steps ≤ 7 := by
  cases r with
  | chain op => cases op <;> simp [steps]
  | _ => simp [steps]

theorem Routine.steps_pos (r : Routine) : 0 < r.steps := by
  cases r with
  | chain op => cases op <;> simp [steps]
  | _ => simp [steps]

theorem potential_descend_le (p : Pending) (r : Routine) :
    (m.descend p r).potential ≤ 8 * m.tokens.tail.length + (m.stack.length + 1) + r.steps := by
  by_cases hlt : m.depth < maxDepth
  · rw [descend_of_lt hlt]
    exact Nat.le_refl _
  · have hfull : maxDepth < m.depth + 1 := by omega
    simp only [descend, if_pos hfull, potential]
    exact Nat.zero_le _

theorem potential_settle_le (reading : Reading) :
    (m.settle reading).potential ≤ 8 * (leftOf reading).length + m.stack.length + 1 := by
  cases reading with
  | ok p => exact Nat.le_refl _
  | error b => simp [settle, potential]

theorem potential_enter_lt (r : Routine) :
    (m.enter r).potential < 8 * m.tokens.length + m.stack.length + r.steps := by
  cases r with
  | chain op =>
    have := Routine.steps_operand op
    simp only [enter, wait, potential, List.length_cons]
    omega
  | unary =>
    by_cases hk : nextKind m.tokens = .not
    · obtain ⟨span, tail, ht⟩ := eq_cons_of_nextKind hk (by simp)
      have := potential_descend_le (m := m) .negation .unary
      rw [enter, if_pos hk]
      simp only [ht, List.tail_cons, List.length_cons] at this ⊢
      omega
    · rw [enter, if_neg hk]
      simp only [wait, potential, Routine.steps, List.length_cons]
      omega
  | primary =>
    simp only [enter]
    split
    · next span tail ht =>
      have := potential_descend_le (m := m) .group (.chain .or)
      simp only [ht, List.tail_cons, List.length_cons, Routine.steps] at this ⊢
      omega
    · next label span tail ht =>
      have := potential_settle_le (m := m) (parseComparison label tail)
      have := length_leftOf_le (parseComparison_looksAhead label) tail
      simp only [ht, List.length_cons, Routine.steps]
      omega
    · simp only [settle, potential, Routine.steps]
      omega

theorem potential_ascend_le (reading : Reading) :
    (m.ascend reading).potential ≤ 8 * (leftOf reading).length + m.stack.length + 1 := by
  unfold ascend
  split
  · simp [potential]
  · exact potential_settle_le _

theorem potential_resume_lt (e : Expr) (p : Pending) :
    (m.resume e p).potential < 8 * m.tokens.length + (m.stack.length + 1) + 1 := by
  cases p with
  | operand op level lhs? =>
    by_cases hop : nextKind m.tokens = op.token
    · obtain ⟨span, tail, ht⟩ := eq_cons_of_nextKind hop op.token_ne_endOfInput
      have hdescend := potential_descend_le (m := m)
        (.operand op level (some (joined op lhs? e))) (.operand op)
      have hsteps := (Routine.operand op).steps_le
      simp only [resume, if_pos hop]
      simp only [ht, List.tail_cons, List.length_cons] at hdescend ⊢
      omega
    · simp only [resume, if_neg hop, potential]
      omega
  | negation =>
    have : (leftOf (.ok (Expr.not e, m.tokens))).length = m.tokens.length := rfl
    have := potential_ascend_le (m := m) (.ok (.not e, m.tokens))
    simp only [resume]
    omega
  | plain =>
    simp only [resume, potential]
    omega
  | group =>
    have := potential_ascend_le (m := m) (closeGroup e m.tokens)
    have := length_leftOf_le (closeGroup_looksAhead e) m.tokens
    simp only [resume]
    omega

theorem potential_step_lt (h : m.potential ≠ 0) : m.step.potential < m.potential := by
  obtain ⟨tokens, depth, stack, control⟩ := m
  cases control with
  | call r => exact potential_enter_lt r
  | give e =>
    cases stack with
    | nil =>
      simp only [step, finish]
      split <;> simp [potential]
    | cons f stack => exact potential_resume_lt e f.pending
  | _ => exact absurd rfl h

theorem step_of_potential_eq_zero (h : m.potential = 0) : m.step = m := by
  obtain ⟨tokens, depth, stack, control⟩ := m
  cases control with
  | call r =>
    have := r.steps_pos
    simp only [potential] at h
    omega
  | give e => simp [potential] at h
  | _ => rfl

theorem potential_iterate {n : Nat} (h : m.potential ≤ n) : (step^[n] m).potential = 0 := by
  induction n generalizing m with
  | zero => exact Nat.le_zero.mp h
  | succ n ih =>
    rw [Function.iterate_succ_apply]
    by_cases hm : m.potential = 0
    · rw [step_of_potential_eq_zero hm]
      exact ih (by omega)
    · have := potential_step_lt hm
      exact ih (by omega)

/-- States that come after each other and have no steps left are the same. -/
theorem iterate_eq_of_potential_eq_zero {k n : Nat} (hk : (step^[k] m).potential = 0)
    (hn : (step^[n] m).potential = 0) : step^[k] m = step^[n] m := by
  have hfixed := Function.iterate_fixed (step_of_potential_eq_zero hk) n
  have hfixed' := Function.iterate_fixed (step_of_potential_eq_zero hn) k
  rw [← Function.iterate_add_apply] at hfixed hfixed'
  rw [← hfixed, Nat.add_comm, hfixed']

theorem potential_of_outcome {stop : Nat} {answer : Except SyntaxError Expr}
    (h : m.outcome? stop = some answer) : m.potential = 0 := by
  obtain ⟨tokens, depth, stack, control⟩ := m
  cases control with
  | accepted e => rfl
  | refused b => rfl
  | _ => cases h

/-- So many steps are enough for a token list. -/
def stepsFor (tokens : List Token) : Nat := 8 * tokens.length + 7

theorem outcome_stepsFor (tokens : List Token) :
    (step^[stepsFor tokens] (start tokens)).outcome? (stopOf tokens) =
      some (parseTokens tokens) := by
  obtain ⟨n, hn⟩ := exists_outcome tokens
  have hpotential : (start tokens).potential = stepsFor tokens := rfl
  have hlast := potential_iterate (Nat.le_of_eq hpotential)
  rw [iterate_eq_of_potential_eq_zero hlast (potential_of_outcome hn), hn]

/-- So many steps, as long as no more activations than the limit allows read operands of `&&` one
within the other. -/
def runWithin (limit : Nat) : Nat → Machine → Option Machine
  | 0, m => some m
  | n + 1, m =>
    if limit < m.step.unaryStarts.length then none else m.step.runWithin limit n

theorem runWithin_eq {limit n : Nat} (h : ∀ k, (step^[k] m).unaryStarts.length ≤ limit) :
    m.runWithin limit n = some (step^[n] m) := by
  induction n generalizing m with
  | zero => rfl
  | succ n ih =>
    have hnext : m.step.unaryStarts.length ≤ limit := h 1
    rw [runWithin, if_neg (Nat.not_lt.mpr hnext), Function.iterate_succ_apply]
    exact ih fun k => h (k + 1)

end Machine

/-- The parser with a limit on the activations that read operands of `&&` one within the other. It
gives up where there would be more. -/
def parseWithin (limit : Nat) (tokens : List Token) : Option (Except SyntaxError Expr) :=
  ((Machine.start tokens).runWithin limit (Machine.stepsFor tokens)).bind
    (·.outcome? (stopOf tokens))

/-- The parser comes to its answer after a number of steps that is linear in the number of tokens,
and on the way its recursion, the counter and the tokens left are within the same bounds for all
token lists. So it never has to give up with a limit of 257 activations. -/
theorem parser_bounded (tokens : List Token) :
    (Machine.step^[8 * tokens.length + 7] (Machine.start tokens)).outcome? (stopOf tokens) =
        some (parseTokens tokens) ∧
      (∀ n, (Machine.step^[n] (Machine.start tokens)).Bounded) ∧
      parseWithin (maxDepth + 1) tokens = some (parseTokens tokens) := by
  have houtcome := Machine.outcome_stepsFor tokens
  have hbounded (n : Nat) : (Machine.step^[n] (Machine.start tokens)).Bounded :=
    (Machine.regular_iterate tokens n).bounded
  refine ⟨houtcome, hbounded, ?_⟩
  rw [parseWithin, Machine.runWithin_eq fun n => (hbounded n).length_unaryStarts_le]
  exact houtcome

/-- A limit of 256 activations is not enough: the label behind 256 negations is in one more. -/
theorem exists_parseWithin_eq_none : ∃ tokens, parseWithin maxDepth tokens = none :=
  ⟨List.replicate maxDepth ⟨.not, .emptyAt 0⟩ ++ [⟨.label "a", .emptyAt 0⟩], by decide +kernel⟩

end MicroFrontends
