import MicroFrontends.Proofs.Selector.Layout
import MicroFrontends.Proofs.Selector.RoundTrip

/-!
# Texts of selectors as operands of other texts

Between parentheses the text of an expression is one operand, whatever stands in it: none of its
tokens merges with a parenthesis, and the level at which it is read does not change what it means.

* `Derives source d` : the tokens of a text are those of a derivation;
* `Expr.AcceptedWithin limit source` : the text is parsed, and no part of it is more than so many
  levels deep;
* `Spelled.writes_append` : text after the tokens of another text;
* `Derives.join`, `Derives.negate` : texts with other texts between parentheses;
* `filterBy_compose` : filtering by such texts is what the operators say of filtering by their
  parts.
-/

namespace MicroFrontends

/-! ## Texts and their derivations -/

/-- The tokens of the text are those of the derivation. -/
def Derives (source : String) (d : Derivation (.chain .or)) : Prop :=
  ∃ tokens, tokenize source = .ok tokens ∧ d.kinds = beforeEnd tokens

/-- The text is parsed, and no part of it is more than `limit` levels deep. -/
def Expr.AcceptedWithin (limit : Nat) (source : String) : Prop :=
  (∃ e, Expr.parse source = .ok e) ∧ ∀ d, Derives source d → d.nesting ≤ limit

theorem Derivation.derives_text (d : Derivation (.chain .or)) (hs : d.Spellable) :
    Derives (String.ofList d.text) d := d.tokenize_text hs

theorem exists_derives {source : String} {e : Expr} (h : Expr.parse source = .ok e) :
    ∃ d, Derives source d ∧ d.lower = e := by
  obtain ⟨tokens, ht, hp⟩ := Except.bind_eq_ok.mp h
  obtain ⟨d, hk, -, hd⟩ := derivation_of_parseTokens (Except.mapError_eq_ok.mp hp)
  exact ⟨d, ⟨tokens, Except.mapError_eq_ok.mp ht, hk⟩, hd⟩

namespace Derives

variable {source : String} {d : Derivation (.chain .or)}

theorem not_blank (h : Derives source d) : source.toList.all isBlank = false := by
  obtain ⟨tokens, ht, hk⟩ := h
  have hspelled : Spelled 0 source.toList tokens := .of_tokens ht
  obtain ⟨k, kinds, hd⟩ := List.exists_cons_of_ne_nil (d.kinds_ne_nil fun _ h => nomatch h)
  obtain ⟨used, left, rfl, hu, -⟩ := exists_append_beforeEnd tokens
  obtain ⟨span, rest, rfl, -⟩ := kindsOf_eq_cons ((hu.trans hk.symm).trans hd)
  refine hspelled.all_isBlank fun he => d.endOfInput_notMem_kinds ?_
  rw [hd, ← he]
  exact List.mem_cons_self

theorem parse_eq_ok (h : Derives source d) (hn : d.nesting ≤ maxDepth) :
    Expr.parse source = .ok d.lower := by
  obtain ⟨tokens, ht, hk⟩ := h
  rw [Expr.parse, ht]
  show (parseTokens tokens).mapError SelectorError.syntactic = _
  rw [d.parseTokens_eq_ok hk hn]
  rfl

theorem unique {d' : Derivation (.chain .or)} (h : Derives source d) (h' : Derives source d') :
    d = d' := by
  obtain ⟨tokens, ht, hk⟩ := h
  obtain ⟨tokens', ht', hk'⟩ := h'
  obtain rfl := Except.ok.inj (ht.symm.trans ht')
  exact Derivation.kinds_injective (hk.trans hk'.symm)

theorem acceptedWithin {limit : Nat} (h : Derives source d) (hn : d.nesting ≤ limit)
    (hl : limit ≤ maxDepth) : Expr.AcceptedWithin limit source := by
  refine ⟨⟨d.lower, h.parse_eq_ok (Nat.le_trans hn hl)⟩, fun d' h' => ?_⟩
  rwa [← h.unique h']

theorem of_writes {text : List Char} (h : Writes d.kinds text) : Derives (String.ofList text) d := by
  obtain ⟨tokens, ht, hk⟩ := h.exists_tokenize
  exact ⟨tokens, ht, (d.beforeEnd_of_kindsOf hk).symm⟩

end Derives

/-! ## Text after other text -/

theorem Writes.blanks {kinds : List TokenKind} {text blanks : List Char}
    (hb : ∀ c ∈ blanks, isBlank c = true) (h : Writes kinds text) :
    Writes kinds (blanks ++ text) := by
  induction blanks with
  | nil => exact h
  | cons c blanks ih =>
    obtain ⟨hc, hb⟩ := List.forall_mem_cons.mp hb
    intro offset
    obtain ⟨tokens, hs, hk⟩ := ih hb (offset + c.utf8Size)
    exact ⟨tokens, hs.cons_blank hc, hk⟩

theorem TokenKind.EndsBefore.append {k : TokenKind} {text rest : List Char}
    (ht : k.EndsBefore text) (hr : k.EndsBefore rest) : k.EndsBefore (text ++ rest) := by
  cases text with
  | nil => exact hr
  | cons c text => cases k <;> exact ht

/-- A text and another one that goes on with no token write the tokens of both. -/
theorem Spelled.writes_append {offset : Nat} {text rest : List Char} {tokens : List Token}
    {kinds : List TokenKind} (h : Spelled offset text tokens)
    (hr : ∀ k : TokenKind, k.EndsBefore rest) (hw : Writes kinds rest) :
    Writes (beforeEnd tokens ++ kinds) (text ++ rest) := by
  induction h with
  | finish hb => exact hw.blanks hb
  | @token _ _ _ blanks text k tokens hb _ hk _ he _ ih =>
    have hne : k ≠ .endOfInput := by
      rintro rfl
      exact hk
    have hkinds : ∀ span, beforeEnd (⟨k, span⟩ :: tokens) = k :: beforeEnd tokens := fun _ =>
      List.takeWhile_cons_of_pos (decide_eq_true hne)
    rw [hkinds, List.append_assoc, List.append_assoc]
    exact (Writes.cons hk (he.append (hr k)) ih).blanks hb

/-! ## Groups as operands -/

namespace Derivation

/-- Two operands of `&&` and the connective between them. -/
def joined : Connective → Derivation (.operand .and) → Derivation (.operand .and) →
    Derivation (.chain .or)
  | .and, lhs, rhs => chain (conjunction (chain lhs (more rhs done))) done
  | .or, lhs, rhs =>
    chain (conjunction (chain lhs done)) (more (conjunction (chain rhs done)) done)

/-- One operand of `&&` alone. -/
def alone (operand : Derivation (.operand .and)) : Derivation (.chain .or) :=
  chain (conjunction (chain operand done)) done

variable (op : Connective) (lhs rhs : Derivation (.operand .and))

theorem kinds_joined : (joined op lhs rhs).kinds = lhs.kinds ++ op.token :: rhs.kinds := by
  cases op <;> simp [joined, kinds]

theorem nesting_joined : (joined op lhs rhs).nesting = max lhs.nesting (rhs.nesting + 1) := by
  cases op <;> simp [joined, nesting]

theorem lower_joined : (joined op lhs rhs).lower = op.join lhs.lower rhs.lower := by
  cases op <;> rfl

theorem kinds_alone : (alone lhs).kinds = lhs.kinds := by
  simp [alone, kinds]

theorem nesting_alone : (alone lhs).nesting = lhs.nesting := by
  simp [alone, nesting]

end Derivation

/-- The two texts between parentheses and the connective between them. -/
def Connective.joinTexts (op : Connective) (a b : String) : String :=
  "(" ++ a ++ ") " ++ String.ofList op.token.spelling ++ " (" ++ b ++ ")"

theorem joinTexts_and (a b : String) :
    Connective.and.joinTexts a b = "(" ++ a ++ ") && (" ++ b ++ ")" := by
  apply String.ext
  simp [Connective.joinTexts, Connective.token, TokenKind.spelling]

theorem joinTexts_or (a b : String) :
    Connective.or.joinTexts a b = "(" ++ a ++ ") || (" ++ b ++ ")" := by
  apply String.ext
  simp [Connective.joinTexts, Connective.token, TokenKind.spelling]

namespace Derives

variable {a b : String} {da db : Derivation (.chain .or)}

open MicroFrontends.Derivation (joined alone group primary)

/-- A text between parentheses writes its tokens between parentheses. -/
theorem writes_group (h : Derives a da) {kinds : List TokenKind} {rest : List Char}
    (hw : Writes kinds rest) :
    Writes ((primary (group da)).kinds ++ kinds) ('(' :: (a.toList ++ ')' :: rest)) := by
  obtain ⟨tokens, ht, hk⟩ := h
  have hspelled : Spelled 0 a.toList tokens := .of_tokens ht
  have hclose : Writes (.rparen :: kinds) (')' :: rest) :=
    Writes.cons (k := .rparen) trivial trivial hw
  have hends : ∀ k : TokenKind, k.EndsBefore (')' :: rest) := by
    intro k
    rw [TokenKind.endsBefore_iff]
    intro c hc
    obtain rfl := Option.some.inj hc
    cases k <;> rfl
  have hbody := hspelled.writes_append hends hclose
  rw [← hk] at hbody
  simp only [Derivation.kinds, List.cons_append, List.append_assoc]
  exact Writes.cons (k := .lparen) trivial trivial hbody

/-- The texts between parentheses and the connective between them form its expression. -/
theorem join (ha : Derives a da) (hb : Derives b db) (op : Connective) :
    Derives (op.joinTexts a b) (joined op (primary (group da)) (primary (group db))) := by
  have hrhs := hb.writes_group Writes.nil
  have hends : op.token.EndsBefore (' ' :: '(' :: (b.toList ++ [')'])) := by
    cases op <;> exact trivial
  have hop := Writes.cons (Derivation.spellable_token op) hends hrhs.blank
  have hw := ha.writes_group hop.blank
  rw [List.append_nil, ← Derivation.kinds_joined] at hw
  have htext : op.joinTexts a b = String.ofList ('(' :: (a.toList ++
      ')' :: ' ' :: (op.token.spelling ++ ' ' :: '(' :: (b.toList ++ [')'])))) := by
    apply String.ext
    simp [Connective.joinTexts]
  rw [htext]
  exact of_writes hw

theorem negate (ha : Derives a da) :
    Derives ("!(" ++ a ++ ")") (alone (.not (primary (group da)))) := by
  have hgroup := ha.writes_group Writes.nil
  have hends : TokenKind.not.EndsBefore ('(' :: (a.toList ++ [')'])) := by
    intro c hc
    obtain rfl := Option.some.inj hc
    decide
  have hw := Writes.cons (k := .not) trivial hends hgroup
  have htext : "!(" ++ a ++ ")" = String.ofList ('!' :: '(' :: (a.toList ++ [')'])) := by
    apply String.ext
    simp
  rw [htext]
  apply of_writes
  rw [Derivation.kinds_alone]
  rwa [List.append_nil] at hw

theorem parse_join (ha : Derives a da) (hb : Derives b db) (hna : da.nesting + 2 ≤ maxDepth)
    (hnb : db.nesting + 2 ≤ maxDepth) (op : Connective) :
    Expr.parse (op.joinTexts a b) = .ok (op.join da.lower db.lower) := by
  have hn : (joined op (primary (group da)) (primary (group db))).nesting ≤ maxDepth := by
    simp only [Derivation.nesting_joined, Derivation.nesting]
    omega
  rw [(ha.join hb op).parse_eq_ok hn, Derivation.lower_joined]
  rfl

theorem parse_negate (ha : Derives a da) (hn : da.nesting + 2 ≤ maxDepth) :
    Expr.parse ("!(" ++ a ++ ")") = .ok (.not da.lower) := by
  refine ha.negate.parse_eq_ok ?_
  rw [Derivation.nesting_alone]
  exact hn

end Derives

/-! ## Filtering by them -/

variable {α : Type} [Labelled α]

/-- Text that is an expression is the selector with that expression. -/
theorem Selector.parse_eq_ok_of_parse {source : String} {e : Expr}
    (h : Expr.parse source = .ok e) : Selector.parse source = .ok ⟨some e⟩ := by
  obtain ⟨d, hd, -⟩ := exists_derives h
  rw [Selector.parse_eq, hd.not_blank, h]
  rfl

theorem filterBy_eq_ok {source : String} {e : Expr} (h : Expr.parse source = .ok e)
    (entries : List α) :
    filterBy entries source = .ok (entries.filter fun x => e.holds (Labelled.label? x)) := by
  rw [filterBy, Selector.parse_eq_ok_of_parse h]
  rfl

/-- Two parsed texts of which no part is more than `maxDepth - 2` levels deep can be put between
parentheses and joined or negated. Filtering by `(a) && (b)` is filtering by both, one after the
other in either order, `(a) || (b)` keeps what one of them keeps, and `!(a)` what the first one
drops. -/
theorem filterBy_compose {a b : String} (ha : Expr.AcceptedWithin (maxDepth - 2) a)
    (hb : Expr.AcceptedWithin (maxDepth - 2) b) :
    (∃ ea eb, Expr.parse a = .ok ea ∧ Expr.parse b = .ok eb ∧
      Expr.parse ("(" ++ a ++ ") && (" ++ b ++ ")") = .ok (.and ea eb) ∧
      Expr.parse ("(" ++ a ++ ") || (" ++ b ++ ")") = .ok (.or ea eb) ∧
      Expr.parse ("!(" ++ a ++ ")") = .ok (.not ea)) ∧
    ∃ p q : α → Bool, ∀ entries : List α,
      filterBy entries a = .ok (entries.filter p) ∧
      filterBy entries b = .ok (entries.filter q) ∧
      filterBy entries ("(" ++ a ++ ") && (" ++ b ++ ")") =
        (filterBy entries a >>= fun kept => filterBy kept b) ∧
      filterBy entries ("(" ++ a ++ ") && (" ++ b ++ ")") =
        (filterBy entries b >>= fun kept => filterBy kept a) ∧
      filterBy entries ("(" ++ a ++ ") || (" ++ b ++ ")") =
        .ok (entries.filter fun x => p x || q x) ∧
      filterBy entries ("!(" ++ a ++ ")") = .ok (entries.filter fun x => !p x) ∧
      (entries.filter p ++ entries.filter fun x => !p x).Perm entries := by
  obtain ⟨⟨ea, hea⟩, hna⟩ := ha
  obtain ⟨⟨eb, heb⟩, hnb⟩ := hb
  obtain ⟨da, hda, rfl⟩ := exists_derives hea
  obtain ⟨db, hdb, rfl⟩ := exists_derives heb
  have hna : da.nesting + 2 ≤ maxDepth := Nat.add_le_add_right (hna da hda) 2
  have hnb : db.nesting + 2 ≤ maxDepth := Nat.add_le_add_right (hnb db hdb) 2
  have hand : Expr.parse ("(" ++ a ++ ") && (" ++ b ++ ")") = .ok (.and da.lower db.lower) :=
    joinTexts_and a b ▸ hda.parse_join hdb hna hnb .and
  have hor : Expr.parse ("(" ++ a ++ ") || (" ++ b ++ ")") = .ok (.or da.lower db.lower) :=
    joinTexts_or a b ▸ hda.parse_join hdb hna hnb .or
  have hnot := hda.parse_negate hna
  refine ⟨⟨_, _, hea, heb, hand, hor, hnot⟩, fun x => Expr.holds (Labelled.label? x) da.lower,
    fun x => Expr.holds (Labelled.label? x) db.lower, fun entries => ?_⟩
  refine ⟨filterBy_eq_ok hea entries, filterBy_eq_ok heb entries, ?_, ?_,
    filterBy_eq_ok hor entries, filterBy_eq_ok hnot entries, List.filter_append_perm _ entries⟩
  · rw [filterBy_eq_ok hand, filterBy_eq_ok hea, Except.ok_bind, filterBy_eq_ok heb,
      List.filter_filter]
    simp only [Expr.holds, Bool.and_comm]
  · rw [filterBy_eq_ok hand, filterBy_eq_ok heb, Except.ok_bind, filterBy_eq_ok hea,
      List.filter_filter]
    rfl

/-- A parenthesis between quotes is no token that could end a group. -/
theorem filterBy_compose_quoted :
    Expr.AcceptedWithin (maxDepth - 2) "a || a" ∧ Expr.AcceptedWithin (maxDepth - 2) "!a=\")\"" ∧
      (∃ ea eb, Expr.parse "a || a" = .ok ea ∧ Expr.parse "!a=\")\"" = .ok eb ∧
        Expr.parse "(a || a) && (!a=\")\")" = .ok (.and ea eb) ∧
        Expr.parse "(a || a) || (!a=\")\")" = .ok (.or ea eb) ∧
        Expr.parse "!(a || a)" = .ok (.not ea)) ∧
      ∀ entries : List (Option (Dict String)),
        filterBy entries "(a || a) && (!a=\")\")" =
          (filterBy entries "a || a" >>= fun kept => filterBy kept "!a=\")\"") := by
  let da : Derivation (.chain .or) := .joined .or .label .label
  let db : Derivation (.chain .or) := .alone (.not (.primary (.compare "a" false (.quoted ")"))))
  have ha : Derives "a || a" da :=
    da.derives_text (by simp [da, Derivation.joined, Derivation.spellable_label])
  have hcompare : (Derivation.compare "a" false (.quoted ")")).Spellable :=
    Derivation.spellable_compare.mpr ⟨by decide, show '"' ∉ ")".toList by decide⟩
  have hb : Derives "!a=\")\"" db :=
    db.derives_text (by simpa [db, Derivation.alone] using hcompare)
  have hna : Expr.AcceptedWithin (maxDepth - 2) _ := ha.acceptedWithin (by decide) (by decide)
  have hnb : Expr.AcceptedWithin (maxDepth - 2) _ := hb.acceptedWithin (by decide) (by decide)
  obtain ⟨hparse, p, q, hfilter⟩ := filterBy_compose (α := Option (Dict String)) hna hnb
  exact ⟨hna, hnb, hparse, fun entries => (hfilter entries).2.2.1⟩

end MicroFrontends
