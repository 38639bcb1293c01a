import MicroFrontends.Proofs.Selector.Lookahead

/-!
# Syntax errors blame the first token that cannot be right

* `Nonterminal.Begins room kinds` : the tokens begin a derivation that fits, so that they can be
  completed;
* `Nonterminal.StuckAt` : what a reader has passed when it fails begins a derivation that fits;
* `Nonterminal.blames`, `readWhole_stuckAt` : every reader fails so, and the tokens before a blamed
  one can be completed;
* `OpensLevelAbove` : the token that opens a level that is too deep;
* `firstDead_of_parseTokens` : what is before the blamed token can be completed, and with it there
  is no way to do so.
-/

namespace MicroFrontends

/-! ## Beginnings of derivations -/

/-- The tokens begin a derivation that nests at most so many levels. -/
def Nonterminal.Begins (n : Nonterminal) (room : Nat) (kinds : List TokenKind) : Prop :=
  ∃ d : Derivation n, kinds <+: d.kinds ∧ d.nesting ≤ room

theorem Derivation.begins {n : Nonterminal} (d : Derivation n) {room : Nat} (h : d.nesting ≤ room) :
    n.Begins room d.kinds := ⟨d, List.prefix_rfl, h⟩

namespace Nonterminal

/-- A derivation without levels. -/
def shallow : (n : Nonterminal) → Derivation n
  | chain .or => .chain (.conjunction (.chain .label .done)) .done
  | chain .and => .chain .label .done
  | rest _ => .done
  | operand .or => .conjunction (.chain .label .done)
  | operand .and => .label
  | primary => .present "a"

theorem begins_nil (n : Nonterminal) (room : Nat) : n.Begins room [] := by
  refine ⟨n.shallow, List.nil_prefix, ?_⟩
  have h : n.shallow.nesting = 0 := by
    rcases n with (_ | _) | _ | (_ | _) | _ <;> rfl
  omega

namespace Begins

variable {n : Nonterminal} {op : Connective} {room : Nat} {kinds : List TokenKind}

theorem mono {room' : Nat} (h : n.Begins room kinds) (hr : room ≤ room') :
    n.Begins room' kinds := by
  obtain ⟨d, hk, hn⟩ := h
  exact ⟨d, hk, Nat.le_trans hn hr⟩

theorem first (h : (operand op).Begins room kinds) : (chain op).Begins room kinds := by
  obtain ⟨d, hk, hn⟩ := h
  refine ⟨.chain d .done, ?_, Nat.max_le.mpr ⟨hn, Nat.zero_le _⟩⟩
  rwa [Derivation.kinds, Derivation.kinds, List.append_nil]

theorem others (d : Derivation (.operand op)) (hd : d.nesting ≤ room)
    (h : (rest op).Begins room kinds) : (chain op).Begins room (d.kinds ++ kinds) := by
  obtain ⟨o, hk, hn⟩ := h
  exact ⟨.chain d o, (List.prefix_append_right_inj _).mpr hk, Nat.max_le.mpr ⟨hd, hn⟩⟩

theorem next (h : (operand op).Begins room kinds) :
    (rest op).Begins (room + 1) (op.token :: kinds) := by
  obtain ⟨d, hk, hn⟩ := h
  refine ⟨.more d .done, ?_, Nat.succ_le_succ (Nat.max_le.mpr ⟨hn, Nat.zero_le _⟩)⟩
  rw [Derivation.kinds, Derivation.kinds, List.append_nil]
  exact (List.prefix_cons_inj _).mpr hk

theorem more (d : Derivation (.operand op)) (hd : d.nesting ≤ room)
    (h : (rest op).Begins room kinds) :
    (rest op).Begins (room + 1) (op.token :: (d.kinds ++ kinds)) := by
  obtain ⟨o, hk, hn⟩ := h
  refine ⟨.more d o, ?_, Nat.succ_le_succ (Nat.max_le.mpr ⟨hd, hn⟩)⟩
  exact (List.prefix_cons_inj _).mpr ((List.prefix_append_right_inj _).mpr hk)

theorem conjunction (h : (chain .and).Begins room kinds) : (operand .or).Begins room kinds := by
  obtain ⟨d, hk, hn⟩ := h
  exact ⟨.conjunction d, hk, hn⟩

theorem primary (h : Nonterminal.primary.Begins room kinds) : (operand .and).Begins room kinds := by
  obtain ⟨d, hk, hn⟩ := h
  exact ⟨.primary d, hk, hn⟩

theorem not (h : (operand .and).Begins room kinds) :
    (operand .and).Begins (room + 1) (.not :: kinds) := by
  obtain ⟨d, hk, hn⟩ := h
  exact ⟨.not d, (List.prefix_cons_inj _).mpr hk, Nat.succ_le_succ hn⟩

theorem group (h : (chain .or).Begins room kinds) :
    Nonterminal.primary.Begins (room + 1) (.lparen :: kinds) := by
  obtain ⟨d, hk, hn⟩ := h
  refine ⟨.group d, ?_, Nat.succ_le_succ hn⟩
  exact (List.prefix_cons_inj _).mpr (hk.trans (List.prefix_append _ _))

end Begins

end Nonterminal

/-! ## Where readers fail -/

/-- The tokens before the blamed one begin a derivation that fits. If its level is what is blamed,
they begin a derivation together with it, which may nest deeper. -/
def Nonterminal.StuckAt (n : Nonterminal) (room : Nat) (tokens : List Token) (b : Blame) : Prop :=
  ∃ used, tokens = used ++ b.rest ∧ n.Begins room (kindsOf used) ∧
    (b.expected = .shallowerNesting → ∃ r, n.Begins r (kindsOf used ++ [nextKind b.rest]))

namespace Nonterminal

/-- A reader that fails as part of another one after tokens that it passed. -/
theorem StuckAt.lift {n m : Nonterminal} {room : Nat} {tokens : List Token} {b : Blame}
    (h : n.StuckAt room tokens b) (before : List Token) (levels : Nat)
    (hb : ∀ r kinds, room ≤ r → n.Begins r kinds →
      m.Begins (r + levels) (kindsOf before ++ kinds)) :
    m.StuckAt (room + levels) (before ++ tokens) b := by
  obtain ⟨used, ht, hfits, hdeeper⟩ := h
  refine ⟨before ++ used, by rw [ht, List.append_assoc], ?_, fun hx => ?_⟩
  · rw [kindsOf_append]
    exact hb room _ (Nat.le_refl room) hfits
  · obtain ⟨r, hr⟩ := hdeeper hx
    rw [kindsOf_append, List.append_assoc]
    exact ⟨_, hb (max r room) _ (Nat.le_max_right r room) (hr.mono (Nat.le_max_left r room))⟩

/-- A reader that fails after a beginning that fits, not for the level of the next token. -/
theorem StuckAt.of_begins {n : Nonterminal} {room : Nat} {used left : List Token} {x : Expected}
    (h : n.Begins room (kindsOf used)) (hx : x ≠ .shallowerNesting) :
    n.StuckAt room (used ++ left) ⟨x, left⟩ :=
  ⟨used, rfl, h, fun h' => absurd h' hx⟩

/-- A reader that fails at once for the level of the token. -/
theorem stuckAt_level {n : Nonterminal} {room : Nat} {tokens : List Token}
    (h : n.Begins (room + 1) [nextKind tokens]) :
    n.StuckAt room tokens ⟨.shallowerNesting, tokens⟩ :=
  ⟨[], rfl, n.begins_nil room, fun _ => ⟨room + 1, h⟩⟩

/-- The reader for the nonterminal fails only where its tokens can be completed. -/
def Blames : Nonterminal → Nat → Prop
  | chain op, room => ∀ tokens b, op.read room tokens = .error b → (chain op).StuckAt room tokens b
  | rest op, room => ∀ lhs tokens b, op.readRest room lhs tokens = .error b →
    (rest op).StuckAt room tokens b
  | operand op, room => ∀ tokens b, op.readOperand room tokens = .error b →
    (operand op).StuckAt room tokens b
  | primary, room => ∀ tokens b, parsePrimary room tokens = .error b → primary.StuckAt room tokens b

/-- The tokens that a reader has passed when it succeeds form a derivation. -/
theorem exists_used {n : Nonterminal} {room : Nat} {read : List Token → Reading}
    {tokens left : List Token} {e : Expr} {P : n.Meaning → Prop} (hl : LooksAhead read)
    (hr : read tokens = .ok (e, left)) (hd : n.Derives room tokens left P) :
    ∃ (used : List Token) (d : Derivation n), tokens = used ++ left ∧ kindsOf used = d.kinds ∧
      d.nesting ≤ room := by
  obtain ⟨used, ht, -⟩ := hl tokens
  rw [hr] at ht
  obtain ⟨d, hk, hn, -⟩ := hd
  refine ⟨used, d, ht, ?_, hn⟩
  have ht : tokens = used ++ left := ht
  rw [ht, kindsOf_append] at hk
  exact List.append_cancel_right hk

theorem stuckAt_parseValue {label : String} (negated : Bool) {room : Nat} {tokens : List Token}
    {b : Blame} {at₁ at₂ : Span} (h : parseValue tokens = .error b) :
    primary.StuckAt room (⟨.label label, at₁⟩ :: ⟨comparisonSign negated, at₂⟩ :: tokens) b := by
  unfold parseValue at h
  split at h
  · cases h
  · cases h
  · cases h
    let d := Derivation.compare label negated (.word "a")
    have hbegins : primary.Begins room
        (kindsOf [⟨.label label, at₁⟩, ⟨comparisonSign negated, at₂⟩]) :=
      ⟨d, ⟨[.label "a"], rfl⟩, Nat.zero_le room⟩
    exact .of_begins hbegins (by simp)

theorem stuckAt_parseComparison {label : String} {room : Nat} {tokens : List Token} {b : Blame}
    {span : Span} (h : parseComparison label tokens = .error b) :
    primary.StuckAt room (⟨.label label, span⟩ :: tokens) b := by
  unfold parseComparison at h
  split at h
  · rcases Except.bind_eq_error.mp h with hv | ⟨p, -, hv⟩
    · exact stuckAt_parseValue false hv
    · cases hv
  · rcases Except.bind_eq_error.mp h with hv | ⟨p, -, hv⟩
    · exact stuckAt_parseValue true hv
    · cases hv
  · cases h

theorem blames_primary {room : Nat} (hgroup : ∀ r < room, (chain .or).Blames r) :
    primary.Blames room := by
  intro tokens b h
  unfold parsePrimary at h
  split at h
  · next span inner =>
    split at h
    · cases h
      exact stuckAt_level (Begins.group (begins_nil _ 0))
    · next room =>
      rcases Except.bind_eq_error.mp h with hb | ⟨⟨e, left⟩, hb, hclose⟩
      · exact (hgroup room (Nat.lt_succ_self room) _ _ hb).lift [⟨.lparen, span⟩] 1
          fun _ _ _ hk => hk.group
      · obtain ⟨used, d, rfl, hk, hn⟩ :=
          exists_used ((chain .or).looksAhead room) hb ((chain .or).sound room _ _ _ hb)
        dsimp only at hclose
        split at hclose
        · cases hclose
        · cases hclose
          have hbegins : primary.Begins (room + 1) (kindsOf (⟨.lparen, span⟩ :: used)) := by
            rw [kindsOf_cons, hk]
            exact (d.begins hn).group
          exact .of_begins hbegins (by simp)
  · exact stuckAt_parseComparison h
  · cases h
    have hbegins : primary.Begins room (kindsOf []) := begins_nil _ _
    exact .of_begins hbegins (by simp)

theorem blames_unary {room : Nat} (hnot : ∀ r < room, (operand .and).Blames r)
    (hprimary : primary.Blames room) : (operand .and).Blames room := by
  intro tokens b h
  change parseUnary room tokens = _ at h
  unfold parseUnary at h
  split at h
  · next span inner =>
    split at h
    · cases h
      exact stuckAt_level (Begins.not (begins_nil _ 0))
    · next room =>
      rcases Except.bind_eq_error.mp h with ha | ⟨p, -, ha⟩
      · exact (hnot room (Nat.lt_succ_self room) _ _ ha).lift [⟨.not, span⟩] 1
          fun _ _ _ hk => hk.not
      · cases ha
  · exact (hprimary _ _ h).lift [] 0 fun _ _ _ hk => hk.primary

theorem blames_rest {op : Connective} {room : Nat} (hoperand : ∀ r < room, (operand op).Blames r)
    (hrest : ∀ r < room, (rest op).Blames r) : (rest op).Blames room := by
  intro lhs tokens b h
  by_cases hop : nextKind tokens = op.token
  · obtain ⟨span, left, rfl⟩ := eq_cons_of_nextKind hop op.token_ne_endOfInput
    cases room with
    | zero =>
      rw [Connective.readRest_full] at h
      cases h
      exact stuckAt_level (Begins.next (begins_nil _ 0))
    | succ room =>
      rw [Connective.readRest_more] at h
      rcases Except.bind_eq_error.mp h with hn | ⟨⟨rhs, mid⟩, hn, ho⟩
      · exact (hoperand room (Nat.lt_succ_self room) _ _ hn).lift [⟨op.token, span⟩] 1
          fun _ _ _ hk => hk.next
      · obtain ⟨used, d, rfl, hk, hd⟩ :=
          exists_used ((operand op).looksAhead room) hn ((operand op).sound room _ _ _ hn)
        have hothers := hrest room (Nat.lt_succ_self room) _ _ _ ho
        refine hothers.lift (⟨op.token, span⟩ :: used) 1 fun r kinds hr ho => ?_
        rw [kindsOf_cons, hk]
        exact ho.more d (Nat.le_trans hd hr)
  · rw [Connective.readRest_of_nextKind hop] at h
    cases h

theorem blames_chain {op : Connective} {room : Nat} (hoperand : (operand op).Blames room)
    (hrest : (rest op).Blames room) : (chain op).Blames room := by
  intro tokens b h
  rw [Connective.read_eq] at h
  rcases Except.bind_eq_error.mp h with hf | ⟨⟨lhs, mid⟩, hf, ho⟩
  · exact (hoperand _ _ hf).lift [] 0 fun _ _ _ hk => hk.first
  · obtain ⟨used, d, rfl, hk, hd⟩ :=
      exists_used ((operand op).looksAhead room) hf ((operand op).sound room _ _ _ hf)
    refine (hrest _ _ _ ho).lift used 0 fun r kinds hr ho => ?_
    rw [hk]
    exact ho.others d (Nat.le_trans hd hr)

theorem blames_conjunction {room : Nat} (h : (chain .and).Blames room) :
    (operand .or).Blames room :=
  fun tokens b hb => (h tokens b hb).lift [] 0 fun _ _ _ hk => hk.conjunction

theorem blames (n : Nonterminal) (room : Nat) : n.Blames room :=
  reader_induction blames_chain blames_rest blames_conjunction blames_unary blames_primary n room

end Nonterminal

/-! ## Whole token lists -/

theorem readWhole_stuckAt {tokens : List Token} {b : Blame} (h : readWhole tokens = .error b) :
    (Nonterminal.chain .or).StuckAt maxDepth tokens b := by
  rcases Except.bind_eq_error.mp h with hb | ⟨⟨e, left⟩, hb, hend⟩
  · exact (Nonterminal.chain .or).blames maxDepth tokens b hb
  · have hl : LooksAhead (parseOr maxDepth) := (Nonterminal.chain .or).looksAhead maxDepth
    obtain ⟨used, d, rfl, hk, hn⟩ :=
      Nonterminal.exists_used hl hb ((Nonterminal.chain .or).sound maxDepth _ _ _ hb)
    obtain rfl := atEnd_eq_error hend
    exact .of_begins (hk ▸ d.begins hn) (by simp)

/-- The last token, and no other one, stands for the end. -/
def EndsOnce (tokens : List Token) : Prop := kindsOf tokens = beforeEnd tokens ++ [.endOfInput]

theorem endsOnce_append_endAt {words : List Token} {offset : Nat}
    (h : .endOfInput ∉ kindsOf words) : EndsOnce (words ++ [.endAt offset]) := by
  have hend : ∀ k ∈ (kindsOf [.endAt offset]).head?, k = .endOfInput :=
    fun k hk => (Option.some.inj hk).symm
  rw [EndsOnce, beforeEnd_of_append (kindsOf_append words [.endAt offset]) h hend, kindsOf_append]
  rfl

/-- Tokens that begin a derivation that fits can be completed. -/
theorem exists_completion {used : List Token}
    (h : (Nonterminal.chain .or).Begins maxDepth (kindsOf used)) :
    ∃ more, EndsOnce (used ++ more) ∧ ∃ e, parseTokens (used ++ more) = .ok e := by
  obtain ⟨d, ⟨kinds, hk⟩, hn⟩ := h
  have hkinds : kindsOf (used ++ placed kinds) = d.kinds ++ [.endOfInput] := by
    rw [kindsOf_append, kindsOf_placed, ← hk, List.append_assoc]
  have hend := d.beforeEnd_of_kindsOf hkinds
  exact ⟨placed kinds, hkinds.trans (congrArg (· ++ _) hend.symm), d.lower,
    d.parseTokens_eq_ok hend.symm hn⟩

theorem rest_ne_nil_of_stuckAt {tokens : List Token} {b : Blame} (hend : EndsOnce tokens)
    (h : (Nonterminal.chain .or).StuckAt maxDepth tokens b) : b.rest ≠ [] := by
  obtain ⟨used, rfl, ⟨d, hk, -⟩, -⟩ := h
  intro hb
  rw [hb, List.append_nil, EndsOnce] at hend
  refine d.endOfInput_notMem_kinds (hk.subset ?_)
  rw [hend]
  exact List.mem_append_right _ (List.mem_singleton_self _)

section
variable {used : List Token} {b : Blame}

/-- What begins like tokens that are refused, up to the blamed one, is refused there as well. -/
theorem readWhole_eq_error_of_prefix (h : readWhole (used ++ b.rest) = .error b)
    {others : List Token} (hp : kindsOf used ++ [nextKind b.rest] <+: kindsOf others) :
    ∃ used' left, others = used' ++ left ∧ used'.length = used.length ∧
      nextKind left = nextKind b.rest ∧ readWhole others = .error ⟨b.expected, left⟩ := by
  obtain ⟨used₂, ht, hread⟩ := readWhole_looksAhead (used ++ b.rest)
  rw [h] at ht hread
  obtain rfl : used = used₂ := List.append_cancel_right ht
  obtain ⟨more, hmore⟩ := hp
  rw [List.append_assoc] at hmore
  obtain ⟨used', left, rfl, hu, hl⟩ := kindsOf_eq_append hmore.symm
  obtain ⟨span, tail, rfl, -⟩ := kindsOf_eq_cons hl
  have hlen := congrArg List.length hu
  simp only [kindsOf, List.length_map] at hlen
  exact ⟨used', _, rfl, hlen, rfl, hread used' _ hu rfl⟩

/-- A derivation that begins like tokens that are refused has the blamed one as its first token at a
level that is too deep. -/
theorem firstAbove_of_readWhole (h : readWhole (used ++ b.rest) = .error b)
    {d : Derivation (.chain .or)} (hd : kindsOf used ++ [nextKind b.rest] <+: d.kinds) :
    b.expected = .shallowerNesting ∧ (nextKind b.rest).opensLevel = true ∧
      FirstAbove maxDepth (d.levels 0) used.length := by
  have hp : kindsOf used ++ [nextKind b.rest] <+: kindsOf (placed d.kinds) := by
    rw [kindsOf_placed]
    exact hd.trans (List.prefix_append _ _)
  obtain ⟨used', left, hsplit, hlen, hnext, hread⟩ := readWhole_eq_error_of_prefix h hp
  have hn : maxDepth < d.nesting := by
    apply Nat.lt_of_not_le
    intro hn
    have hok := d.parseTokens_placed hn
    rw [parseTokens_eq_error_iff.mpr ⟨_, hread, rfl⟩] at hok
    cases hok
  have hstop : (Nonterminal.chain .or).Stops (kindsOf [.endAt 0]) := Nonterminal.stops_cons.mpr rfl
  obtain ⟨before, t, after, hb, ht, hlevels, hr⟩ :=
    d.runsOut_at (kindsOf_map_emptyAt d.kinds 0) hn hstop 0
  have hr : parseOr maxDepth (placed d.kinds) =
      .error ⟨.shallowerNesting, t :: (after ++ [.endAt 0])⟩ := hr
  rw [readWhole, hr, Except.error_bind, Except.error.injEq, Blame.mk.injEq] at hread
  obtain ⟨hx, rfl⟩ := hread
  have hsplit' : placed d.kinds = before ++ t :: (after ++ [.endAt 0]) := by
    rw [placed, hb, List.append_assoc]
    rfl
  obtain rfl : used' = before := List.append_cancel_right (hsplit.symm.trans hsplit')
  rw [Nat.zero_add, hlen] at hlevels
  exact ⟨hx.symm, hnext ▸ ht, hlevels⟩

end

/-- A token of the kind after the tokens before it opens the first level above the limit, in
whichever way they are completed to tokens that have a derivation. -/
def OpensLevelAbove (limit : Nat) (before : List TokenKind) (k : TokenKind) : Prop :=
  k.opensLevel = true ∧ (∃ d : Derivation (.chain .or), before ++ [k] <+: d.kinds) ∧
    ∀ d : Derivation (.chain .or), before ++ [k] <+: d.kinds →
      FirstAbove limit (d.levels 0) before.length

/-- The error for tokens that are refused names one of them. The tokens before it can be completed
to tokens that are accepted, and no tokens that are accepted begin with them and a token of its
kind. Its level is what is blamed exactly if it opens the first one above `maxDepth`. -/
theorem firstDead_of_parseTokens {tokens : List Token} {err : SyntaxError} (hend : EndsOnce tokens)
    (h : parseTokens tokens = .error err) :
    ∃ before t after, tokens = before ++ t :: after ∧
      err.found = t.kind.describe ∧ err.position = t.span.start ∧
      (∃ more, EndsOnce (before ++ more) ∧ ∃ e, parseTokens (before ++ more) = .ok e) ∧
      (∀ others, kindsOf before ++ [t.kind] <+: kindsOf others → ∀ e, parseTokens others ≠ .ok e) ∧
      (err.expected = .shallowerNesting ↔ OpensLevelAbove maxDepth (kindsOf before) t.kind) := by
  obtain ⟨b, hread, rfl⟩ := parseTokens_eq_error_iff.mp h
  have hstuck := readWhole_stuckAt hread
  have hrest := rest_ne_nil_of_stuckAt hend hstuck
  obtain ⟨used, rfl, hfits, hdeeper⟩ := hstuck
  obtain ⟨t, after, ht⟩ := List.exists_cons_of_ne_nil hrest
  have hkind : nextKind b.rest = t.kind := by rw [ht]; rfl
  have hfound : b.rest.headD (.endAt (stopOf (used ++ b.rest))) = t := by rw [ht]; rfl
  refine ⟨used, t, after, by rw [ht], congrArg (·.kind.describe) hfound,
    congrArg (·.span.start) hfound, exists_completion hfits, fun others hp e hok => ?_, ?_⟩
  · obtain ⟨used', left, -, -, -, hothers⟩ := readWhole_eq_error_of_prefix hread (hkind ▸ hp)
    rw [parseTokens_eq_error_iff.mpr ⟨_, hothers, rfl⟩] at hok
    cases hok
  · have hfirst (d : Derivation (.chain .or)) (hd : kindsOf used ++ [t.kind] <+: d.kinds) :=
      firstAbove_of_readWhole hread (d := d) (hkind ▸ hd)
    rw [hkind] at hfirst hdeeper
    constructor
    · intro hx
      obtain ⟨r, d, hd, -⟩ := hdeeper hx
      exact ⟨(hfirst d hd).2.1, ⟨d, hd⟩, fun d' hd' => by simpa [kindsOf] using (hfirst d' hd').2.2⟩
    · rintro ⟨-, ⟨d, hd⟩, -⟩
      exact (hfirst d hd).1

/-- The tokens of so many negations in a row from an offset on. -/
def negationsAt (offset : Nat) : Nat → List Token
  | 0 => []
  | count + 1 => ⟨.not, ⟨offset, offset + 1⟩⟩ :: negationsAt (offset + 1) count

theorem endOfInput_notMem_negationsAt (offset count : Nat) :
    .endOfInput ∉ kindsOf (negationsAt offset count) := by
  induction count generalizing offset with
  | zero => exact List.not_mem_nil
  | succ count ih => simpa [negationsAt] using ih (offset + 1)

theorem parseUnary_negationsAt (room offset : Nat) (rest : List Token) :
    parseUnary room (negationsAt offset (room + 1) ++ rest) =
      .error ⟨.shallowerNesting, ⟨.not, ⟨offset + room, offset + room + 1⟩⟩ :: rest⟩ := by
  induction room generalizing offset with
  | zero => exact parseUnary.eq_1 _ rest
  | succ room ih =>
    rw [negationsAt, List.cons_append, parseUnary, ih, Nat.add_right_comm, Nat.add_assoc offset]
    rfl

/-- Of 257 negations the last one is the first to open the level 257, whatever comes after them. -/
theorem firstDead_of_parseTokens_negations :
    EndsOnce (negationsAt 0 257 ++ [.endAt 257]) ∧
      parseTokens (negationsAt 0 257 ++ [.endAt 257]) = .error ⟨.shallowerNesting, "'!'", 256⟩ ∧
      ∃ before t after, negationsAt 0 257 ++ [.endAt 257] = before ++ t :: after ∧
        t.span.start = 256 ∧ OpensLevelAbove maxDepth (kindsOf before) t.kind := by
  have hend : EndsOnce (negationsAt 0 257 ++ [.endAt 257]) :=
    endsOnce_append_endAt (endOfInput_notMem_negationsAt 0 257)
  have herr : parseTokens (negationsAt 0 257 ++ [.endAt 257]) =
      .error ⟨.shallowerNesting, "'!'", 256⟩ := by
    have hread : parseUnary maxDepth (negationsAt 0 257 ++ [.endAt 257]) = .error _ :=
      parseUnary_negationsAt maxDepth 0 [.endAt 257]
    rw [parseTokens, parseOr, parseAnd, hread]
    rfl
  obtain ⟨before, t, after, ht, -, hposition, -, -, hlevel⟩ := firstDead_of_parseTokens hend herr
  exact ⟨hend, herr, before, t, after, ht, hposition.symm, hlevel.mp rfl⟩

end MicroFrontends
