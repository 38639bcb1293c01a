import MicroFrontends.Proofs.Selector.SyntaxErrors

/-!
# The parser reads no further than the end of the text

A token list may have a token that stands for the end of the text, or just be over. The parser takes
the one for the other, and what stands after the end is nothing to it.

* `Nonterminal.Begins.endOfInput_notMem` : tokens that begin a derivation go on before the end;
* `parseTokens_of_next` : the outcome depends on the tokens that are passed, none of which is the
  end, and on the one after them;
* `parseTokens_through_end` : so all tokens after the end can be left out, and the end itself if it
  is where the tokens are over.
-/

namespace MicroFrontends

theorem Nonterminal.Begins.endOfInput_notMem {n : Nonterminal} {room : Nat}
    {kinds : List TokenKind} (h : n.Begins room kinds) : .endOfInput ∉ kinds := by
  obtain ⟨d, hk, -⟩ := h
  exact fun hend => d.endOfInput_notMem_kinds (hk.subset hend)

/-- What the parser has passed when it is done begins an expression. -/
theorem readWhole_begins (tokens : List Token) :
    ∃ used, tokens = used ++ leftOf (readWhole tokens) ∧
      (Nonterminal.chain .or).Begins maxDepth (kindsOf used) := by
  cases hread : readWhole tokens with
  | error b =>
    obtain ⟨used, ht, hfits, -⟩ := readWhole_stuckAt hread
    exact ⟨used, ht, hfits⟩
  | ok p =>
    obtain ⟨⟨e, left⟩, hr, hend⟩ := Except.bind_eq_ok.mp hread
    obtain ⟨⟨⟩, -, hp⟩ := Except.bind_eq_ok.mp hend
    cases hp
    have hl : LooksAhead (parseOr maxDepth) := (Nonterminal.chain .or).looksAhead maxDepth
    obtain ⟨used, d, ht, hk, hn⟩ :=
      Nonterminal.exists_used hl hr ((Nonterminal.chain .or).sound maxDepth _ _ _ hr)
    exact ⟨used, ht, hk ▸ d.begins hn⟩

theorem nextKind_eq_headD (tokens : List Token) (stop : Nat) :
    nextKind tokens = (tokens.headD (.endAt stop)).kind := by
  cases tokens <;> rfl

/-- The outcome depends on the tokens that the parser has passed when it is done, none of which is
the end, and on the one that it finds after them. -/
theorem parseTokens_of_next (tokens : List Token) :
    ∃ used left, tokens = used ++ left ∧ .endOfInput ∉ kindsOf used ∧
      ∀ left', left'.headD (.endAt (stopOf (used ++ left'))) = left.headD (.endAt (stopOf tokens)) →
        parseTokens (used ++ left') = parseTokens tokens := by
  obtain ⟨used, ht, hbegins⟩ := readWhole_begins tokens
  obtain ⟨used₂, ht₂, hread⟩ := readWhole_looksAhead tokens
  obtain rfl : used = used₂ := List.append_cancel_right (ht.symm.trans ht₂)
  refine ⟨used, leftOf (readWhole tokens), ht, hbegins.endOfInput_notMem, fun left' hnext => ?_⟩
  have hkind : nextKind left' = nextKind (leftOf (readWhole tokens)) := by
    rw [nextKind_eq_headD _ (stopOf (used ++ left')), hnext, ← nextKind_eq_headD]
  rw [parseTokens_eq, parseTokens_eq, hread used left' rfl hkind]
  cases hr : readWhole tokens with
  | ok p => rfl
  | error b =>
    -- both errors name the same token
    rw [hr] at hnext
    have herror : Blame.toSyntaxError ⟨b.expected, left'⟩ (stopOf (used ++ left')) =
        b.toSyntaxError (stopOf tokens) := by
      simp only [Blame.toSyntaxError]
      rw [hnext]
      rfl
    exact congrArg Except.error herror

/-- The parser gives the same result or the same error whatever follows a token that stands for the
end, and if such a token is put where the tokens are over, at the offset after the last one. -/
theorem parseTokens_through_end (tokens : List Token) :
    (∀ span after, parseTokens (tokens ++ ⟨.endOfInput, span⟩ :: after) =
        parseTokens (tokens ++ [⟨.endOfInput, span⟩])) ∧
      parseTokens (tokens ++ [.endAt (stopOf tokens)]) = parseTokens tokens := by
  constructor
  · intro span after
    obtain ⟨used, left, ht, hend, hread⟩ :=
      parseTokens_of_next (tokens ++ ⟨.endOfInput, span⟩ :: after)
    -- the end is among the tokens that are not passed
    obtain ⟨mid, rfl, rfl⟩ :
        ∃ mid, tokens = used ++ mid ∧ left = mid ++ ⟨.endOfInput, span⟩ :: after := by
      rcases List.append_eq_append_iff.mp ht with ⟨mid, rfl, hmid⟩ | ⟨mid, rfl, hmid⟩
      · cases mid with
        | nil => exact ⟨[], by simp, hmid.symm⟩
        | cons t mid =>
          obtain ⟨rfl, -⟩ := List.cons.inj hmid
          simp [kindsOf] at hend
      · exact ⟨mid, rfl, hmid⟩
    have hcut := hread (mid ++ [⟨.endOfInput, span⟩]) (by cases mid <;> rfl)
    rw [← List.append_assoc] at hcut
    exact hcut.symm
  · obtain ⟨used, left, rfl, -, hread⟩ := parseTokens_of_next tokens
    rw [List.append_assoc]
    refine hread _ ?_
    cases left <;> rfl

end MicroFrontends
