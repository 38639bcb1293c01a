import Mathlib.Data.List.TakeWhile
import MicroFrontends.Json.Number
import MicroFrontends.Proofs.Json.Reader

/-!
# Numbers

`NumberText t` says that `t` has the form of a number. Whether it is read or skipped, only `t` is
used up (`reads_number`, `skipNumber_append`), and a whole number of 64 bits is read back from its
digits (`readNumber_repr`).
-/

namespace MicroFrontends.Json

/-! ## The form of a number -/

/-- Digits, of which there is at least one. -/
def Digits (d : Document) : Prop := d ≠ [] ∧ ∀ s ∈ d, isDigit s = true

/-- The digits before the point. A zero at their start is the only one. -/
def WholeText (d : Document) : Prop := Digits d ∧ (d.head? = some (.char '0') → d.length = 1)

/-- The point and the digits after it, or nothing. -/
def FractionText (d : Document) : Prop := d = [] ∨ ∃ ds, d = .char '.' :: ds ∧ Digits ds

/-- The sign of an exponent, or nothing. -/
def ExponentSign (d : Document) : Prop := d = [] ∨ d = [.char '+'] ∨ d = [.char '-']

/-- The exponent with its letter, or nothing. -/
def ExponentText (d : Document) : Prop :=
  d = [] ∨ ∃ letter sign ds, d = letter :: (sign ++ ds) ∧
    (letter = .char 'e' ∨ letter = .char 'E') ∧ ExponentSign sign ∧ Digits ds

/-- A number without its sign. -/
def UnsignedText (d : Document) : Prop :=
  ∃ whole fraction exponent, d = whole ++ (fraction ++ exponent) ∧ WholeText whole ∧
    FractionText fraction ∧ ExponentText exponent

/-- The form of a number. -/
def NumberText (d : Document) : Prop := UnsignedText d ∨ ∃ u, d = .char '-' :: u ∧ UnsignedText u

/-! ## Digits and what follows them -/

/-- No digit is at the start. -/
def DigitFree (d : Document) : Prop := ∀ s ∈ d.head?, isDigit s = false

theorem startsWithDigit_eq_false {d : Document} (h : DigitFree d) : startsWithDigit d = false := by
  cases d with
  | nil => rfl
  | cons s d => exact h s rfl

theorem isDigit_of_isDelimiter {s : Symbol} (h : isDelimiter s = true) : isDigit s = false := by
  cases s with
  | junk b => rfl
  | char c =>
    simp only [isDelimiter, isSpace, Bool.or_eq_true, decide_eq_true_eq, Symbol.char.injEq] at h
    rcases h with (((((rfl | rfl) | rfl) | rfl) | rfl) | rfl) | rfl <;> rfl

theorem Ends.digitFree {d : Document} (h : Ends d) : DigitFree d :=
  fun s hs => isDigit_of_isDelimiter (h s hs)

theorem digitFree_exponent {e rest : Document} (he : ExponentText e) (hr : Ends rest) :
    DigitFree (e ++ rest) := by
  rcases he with rfl | ⟨letter, sign, ds, rfl, rfl | rfl, -, -⟩
  · exact hr.digitFree
  all_goals
    intro s hs
    obtain rfl := Option.some.inj hs
    rfl

theorem digitFree_fraction {f e rest : Document} (hf : FractionText f) (he : ExponentText e)
    (hr : Ends rest) : DigitFree (f ++ e ++ rest) := by
  rcases hf with rfl | ⟨ds, rfl, -⟩
  · rw [List.nil_append]
    exact digitFree_exponent he hr
  · intro s hs
    obtain rfl := Option.some.inj hs
    rfl

theorem startsWithDigit_append {ds : Document} (h : Digits ds) (rest : Document) :
    startsWithDigit (ds ++ rest) = true := by
  obtain ⟨s, ds, rfl⟩ := List.exists_cons_of_ne_nil h.1
  exact h.2 s List.mem_cons_self

theorem skipDigits_append {ds rest : Document} (h : ∀ s ∈ ds, isDigit s = true)
    (hr : DigitFree rest) : skipDigits (ds ++ rest) = rest := dropWhile_run h hr

theorem collect_digitFree (limit value count : Nat) {rest : Document} (hr : DigitFree rest) :
    collect limit value count rest = ⟨value, count, rest⟩ := by
  cases rest with
  | nil => rfl
  | cons s rest =>
    have hs : digit? s = none := Option.not_isSome_iff_eq_none.mp (by simpa [isDigit] using hr s rfl)
    simp only [collect, hs]

/-- Of digits the same number is collected and the same ones are left, whatever comes after them. -/
theorem collect_append (limit : Nat) : ∀ (ds : Document), (∀ s ∈ ds, isDigit s = true) →
    ∀ value count, ∃ value' count' left, (∀ s ∈ left, isDigit s = true) ∧
      count' + left.length = count + ds.length ∧
      ∀ rest, DigitFree rest → collect limit value count (ds ++ rest) = ⟨value', count', left ++ rest⟩
  | [], _, value, count => by
    exact ⟨value, count, [], fun s hs => (List.not_mem_nil hs).elim, rfl, fun rest hr =>
      collect_digitFree limit value count hr⟩
  | s :: ds, h, value, count => by
    obtain ⟨k, hk⟩ := Option.isSome_iff_exists.mp (h s List.mem_cons_self)
    by_cases hle : value * 10 + k ≤ limit
    · obtain ⟨value', count', left, hleft, hlen, hc⟩ := collect_append limit ds
        (fun s hs => h s (List.mem_cons_of_mem _ hs)) (value * 10 + k) (count + 1)
      refine ⟨value', count', left, hleft, by simp only [List.length_cons]; omega, fun rest hr => ?_⟩
      rw [← hc rest hr]
      simp only [List.cons_append, collect, hk, if_pos hle]
    · refine ⟨value, count, s :: ds, h, rfl, fun rest _ => ?_⟩
      simp only [List.cons_append, collect, hk, if_neg hle]

theorem startsWithDigit_left {left rest : Document} (h : ∀ s ∈ left, isDigit s = true)
    (hr : DigitFree rest) : startsWithDigit (left ++ rest) = !left.isEmpty := by
  cases left with
  | nil => exact startsWithDigit_eq_false hr
  | cons s left => exact h s List.mem_cons_self

/-! ## Reading -/

namespace Signed

theorem reads_withExponent (n : Signed) (e : Int) : Reads (n.withExponent e) [] := by
  unfold Reads withExponent
  cases ofParts? n.negative n.digits e with
  | some x => exact ⟨some (.float x), fun _ _ => rfl⟩
  | none => exact ⟨none, fun _ _ => rfl⟩

/-- The digits of an exponent, after its sign. -/
def readExponentDigits (n : Signed) (e : Int) (down : Bool) (d : Document) :
    Except Failure (Json × Document) :=
  match d with
  | [] => blameLast .endInValue []
  | s :: d =>
    match digit? s with
    | none => blameNext .invalidNumber (s :: d)
    | some k =>
      let c := collect maxExponent k 0 d
      if startsWithDigit c.rest then
        if n.digits ≠ 0 && !down then blameLast .numberOutOfRange c.rest.tail
        else .ok (.float (.zero n.negative), skipDigits c.rest)
      else n.withExponent (if down then e - c.value else e + c.value) c.rest

theorem reads_exponentDigits (n : Signed) (e : Int) (down : Bool) {ds : Document} (h : Digits ds) :
    Reads (n.readExponentDigits e down) ds := by
  obtain ⟨s, ds, rfl⟩ := List.exists_cons_of_ne_nil h.1
  obtain ⟨k, hk⟩ := Option.isSome_iff_exists.mp (h.2 s List.mem_cons_self)
  obtain ⟨value, count, left, hleft, -, hc⟩ := collect_append maxExponent ds
    (fun s hs => h.2 s (List.mem_cons_of_mem _ hs)) k 0
  have hread (rest : Document) (hr : Ends rest) : n.readExponentDigits e down (s :: ds ++ rest) =
      if left.isEmpty then n.withExponent (if down then e - value else e + value) rest
      else if n.digits ≠ 0 && !down then blameLast .numberOutOfRange (left ++ rest).tail
      else .ok (.float (.zero n.negative), rest) := by
    rw [List.cons_append, readExponentDigits]
    simp only [hk, hc rest hr.digitFree, startsWithDigit_left hleft hr.digitFree,
      skipDigits_append hleft hr.digitFree]
    cases left with
    | nil => simp
    | cons s left => simp
  by_cases hl : left.isEmpty
  · obtain ⟨x, hx⟩ := n.reads_withExponent (if down then e - value else e + value)
    exact ⟨x, fun rest hr => by rw [hread rest hr, if_pos hl]; exact hx rest hr⟩
  by_cases hd : (n.digits ≠ 0 && !down) = true
  · exact ⟨none, fun rest hr => by rw [hread rest hr, if_neg hl, if_pos hd]; rfl⟩
  · exact ⟨some (.float (.zero n.negative)), fun rest hr => by
      rw [hread rest hr, if_neg hl, if_neg hd]; rfl⟩

theorem readExponent_eq (n : Signed) (e : Int) {sign ds : Document} (hs : ExponentSign sign)
    (h : Digits ds) (rest : Document) :
    n.readExponent e (sign ++ ds ++ rest) =
      n.readExponentDigits e (sign = [.char '-']) (ds ++ rest) := by
  obtain ⟨s, ds, rfl⟩ := List.exists_cons_of_ne_nil h.1
  have hd : isDigit s = true := h.2 s List.mem_cons_self
  rcases hs with rfl | rfl | rfl
  · -- no digit is taken for a sign
    unfold readExponent
    split
    next down d heq =>
      split at heq
      · next h => cases h; cases hd
      · next h => cases h; cases hd
      · cases heq; rfl
  · rfl
  · rfl

theorem reads_exponent (n : Signed) (e : Int) {sign ds : Document} (hs : ExponentSign sign)
    (h : Digits ds) : Reads (n.readExponent e) (sign ++ ds) := by
  obtain ⟨x, hx⟩ := n.reads_exponentDigits e (sign = [.char '-']) h
  exact ⟨x, fun rest hr => by rw [n.readExponent_eq e hs h, hx rest hr]⟩

theorem readOptionalExponent_ends (n : Signed) (e : Int) {rest : Document} (hr : Ends rest) :
    n.readOptionalExponent e rest = n.withExponent e rest := by
  rw [readOptionalExponent]
  · exact hr.ne_cons rfl
  · exact hr.ne_cons rfl

theorem reads_optionalExponent (n : Signed) (e : Int) {t : Document} (h : ExponentText t) :
    Reads (n.readOptionalExponent e) t := by
  rcases h with rfl | ⟨letter, sign, ds, rfl, hl, hs, hd⟩
  · obtain ⟨x, hx⟩ := n.reads_withExponent e
    exact ⟨x, fun rest hr => by rw [← hx rest hr, List.nil_append, n.readOptionalExponent_ends e hr]⟩
  · obtain ⟨x, hx⟩ := n.reads_exponent e hs hd
    refine ⟨x, fun rest hr => ?_⟩
    rw [← hx rest hr]
    rcases hl with rfl | rfl <;> rfl

theorem reads_fraction (n : Signed) (e : Int) {ds t : Document} (hd : Digits ds)
    (h : ExponentText t) : Reads (n.readFraction e) (ds ++ t) := by
  obtain ⟨value, count, left, hleft, hlen, hc⟩ := collect_append maxDigits ds hd.2 n.digits 0
  have hread (rest : Document) (hr : Ends rest) : n.readFraction e (ds ++ t ++ rest) =
      readOptionalExponent ⟨n.negative, value⟩ (e - count) (t ++ rest) := by
    have hfree := digitFree_exponent h hr
    rw [List.append_assoc, readFraction]
    simp only [hc _ hfree, startsWithDigit_left hleft hfree, skipDigits_append hleft hfree]
    cases left with
    | nil =>
      have hpos := List.length_pos_iff.mpr hd.1
      have hcount : count ≠ 0 := by simp only [List.length_nil] at hlen; omega
      simp [hcount]
    | cons s left => simp
  obtain ⟨x, hx⟩ := reads_optionalExponent ⟨n.negative, value⟩ (e - count) h
  exact ⟨x, fun rest hr => by rw [hread rest hr, hx rest hr]⟩

end Signed

theorem digit?_eq_zero {s : Symbol} (h : digit? s = some 0) : s = .char '0' := by
  cases s with
  | junk b => cases h
  | char c =>
    simp only [digit?, Option.ite_none_right_eq_some, Option.some.injEq, Char.isDigit,
      Bool.and_eq_true, decide_eq_true_eq] at h
    obtain ⟨⟨hge, -⟩, h⟩ := h
    have hge : '0'.toNat ≤ c.toNat := hge
    exact congrArg Symbol.char (Char.toNat_inj.mp (by omega))

/-- Reads what follows the digits of a number before its point, where `plain` reads nothing. -/
def readAfterWhole (n : Signed) (e : Int) (plain : Reader Json) : Reader Json
  | .char '.' :: d => n.readFraction e d
  | .char 'e' :: d => n.readExponent e d
  | .char 'E' :: d => n.readExponent e d
  | d => plain d

theorem readAfterWhole_withExponent (n : Signed) (e : Int) (d : Document) :
    (match d with
      | .char '.' :: d => n.readFraction e d
      | d => n.readOptionalExponent e d) = readAfterWhole n e (n.withExponent e) d := by
  unfold readAfterWhole Signed.readOptionalExponent
  split
  · rfl
  · next hne =>
    split
    · rfl
    · rfl
    · split
      · exact absurd rfl (hne _)
      all_goals grind

theorem readAfterWhole_ends (n : Signed) (e : Int) (plain : Reader Json) {rest : Document}
    (hr : Ends rest) : readAfterWhole n e plain rest = plain rest := by
  rw [readAfterWhole]
  all_goals exact hr.ne_cons rfl

theorem reads_afterWhole (n : Signed) (e : Int) {plain : Reader Json} (hp : Reads plain [])
    {f t : Document} (hf : FractionText f) (ht : ExponentText t) :
    Reads (readAfterWhole n e plain) (f ++ t) := by
  rcases hf with rfl | ⟨ds, rfl, hd⟩
  · rcases ht with rfl | ⟨letter, sign, ds, rfl, hl, hs, hd⟩
    · obtain ⟨x, hx⟩ := hp
      exact ⟨x, fun rest hr => (congrArg _ (readAfterWhole_ends n e plain hr)).trans (hx rest hr)⟩
    · obtain ⟨x, hx⟩ := n.reads_exponent e hs hd
      refine ⟨x, fun rest hr => ?_⟩
      rw [← hx rest hr]
      rcases hl with rfl | rfl <;> rfl
  · obtain ⟨x, hx⟩ := n.reads_fraction e hd ht
    exact ⟨x, hx⟩

/-- A number is read in two parts: the digits before its point, of which those that no longer fit
count in the exponent, and what follows them. -/
theorem readNumber_cons (negative : Bool) {s : Symbol} {first : Nat} (hs : digit? s = some first)
    (d : Document) : readNumber negative (s :: d) =
      if first = 0 && startsWithDigit d then blameNext .invalidNumber d
      else
        let c := if first = 0 then ⟨0, 0, d⟩ else collect maxDigits first 0 d
        let n : Signed := ⟨negative, c.value⟩
        let rest := skipDigits c.rest
        let e := c.rest.length - rest.length
        if startsWithDigit c.rest then readAfterWhole n e (n.withExponent e) rest
        else readAfterWhole n 0 (fun d => .ok (n.whole, d)) c.rest := by
  simp only [readNumber, hs]
  generalize (if first = 0 then (⟨0, 0, d⟩ : Collected) else collect maxDigits first 0 d) = c
  split
  · rfl
  · split
    · exact readAfterWhole_withExponent ⟨negative, c.value⟩ _ _
    · rfl

theorem reads_number (negative : Bool) {t : Document} (h : UnsignedText t) :
    Reads (readNumber negative) t := by
  obtain ⟨whole, fraction, exponent, rfl, ⟨hw, hzero⟩, hf, he⟩ := h
  obtain ⟨s, ds, rfl⟩ := List.exists_cons_of_ne_nil hw.1
  obtain ⟨first, hfirst⟩ := Option.isSome_iff_exists.mp (hw.2 s List.mem_cons_self)
  -- a zero is the only digit, and nothing more would be collected
  have hnil (h0 : first = 0) : ds = [] := by
    subst h0
    obtain rfl := digit?_eq_zero hfirst
    simpa using hzero rfl
  obtain ⟨value, count, left, hleft, -, hc⟩ := collect_append maxDigits ds
    (fun s hs => hw.2 s (List.mem_cons_of_mem _ hs)) first 0
  let n : Signed := ⟨negative, value⟩
  have hread (rest : Document) (hr : Ends rest) :
      readNumber negative (s :: ds ++ (fraction ++ exponent) ++ rest) =
        if left.isEmpty then
          readAfterWhole n 0 (fun d => .ok (n.whole, d)) (fraction ++ exponent ++ rest)
        else readAfterWhole n left.length (n.withExponent left.length)
          (fraction ++ exponent ++ rest) := by
    have hfree := digitFree_fraction hf he hr
    rw [List.cons_append, List.cons_append, List.append_assoc, readNumber_cons _ hfirst]
    generalize fraction ++ exponent ++ rest = following at hfree ⊢
    have hguard : (decide (first = 0) && startsWithDigit (ds ++ following)) = false := by
      by_cases h0 : first = 0
      · rw [hnil h0, List.nil_append, startsWithDigit_eq_false hfree, Bool.and_false]
      · simp [h0]
    have hcollected : (if first = 0 then ⟨0, 0, ds ++ following⟩
        else collect maxDigits first 0 (ds ++ following)) =
        (⟨value, count, left ++ following⟩ : Collected) := by
      rw [← hc _ hfree]
      split
      · next h0 =>
        subst h0
        rw [hnil rfl, List.nil_append, collect_digitFree _ _ _ hfree]
      · rfl
    simp only [hguard, Bool.false_eq_true, if_false, hcollected, startsWithDigit_left hleft hfree,
      skipDigits_append hleft hfree, List.length_append]
    cases left <;> simp [n]
  have hplain : Reads (fun d => .ok (n.whole, d)) [] := ⟨some n.whole, fun _ _ => rfl⟩
  by_cases hl : left.isEmpty
  · obtain ⟨x, hx⟩ := reads_afterWhole n 0 hplain hf he
    exact ⟨x, fun rest hr => by rw [hread rest hr, if_pos hl]; exact hx rest hr⟩
  · obtain ⟨x, hx⟩ := reads_afterWhole n left.length (n.reads_withExponent left.length) hf he
    exact ⟨x, fun rest hr => by rw [hread rest hr, if_neg hl]; exact hx rest hr⟩

/-! ## What is read has the form of a number -/

/-- The number is one of 64 bits, with a sign or without. -/
def Fits64 (n : Int) : Prop := -(Nat.pow 2 63 : Nat) ≤ n ∧ n < (Nat.pow 2 64 : Nat)

/-- The value is a number. -/
def Numeric (v : Json) : Prop := (∃ x, v = .float x) ∨ ∃ n, v = .int n ∧ Fits64 n

theorem Signed.whole_neg {n : Nat} (hpos : 0 < n) (hn : n ≤ Nat.pow 2 63) :
    (⟨true, n⟩ : Signed).whole = .int (-n) := by
  have hguard : (decide (n = 0) || decide (Nat.pow 2 63 < n)) = false := by
    simp only [Bool.or_eq_false_iff, decide_eq_false_iff_not]
    omega
  simp only [whole, hguard, if_true, Bool.false_eq_true, if_false]

theorem Signed.numeric_whole {n : Signed} (h : n.digits ≤ maxDigits) : Numeric n.whole := by
  have hmax : maxDigits = 2 ^ 64 - 1 := rfl
  have hmin : Nat.pow 2 63 = 2 ^ 63 := rfl
  have hpow : Nat.pow 2 64 = 2 ^ 64 := rfl
  unfold whole
  split
  · split
    · exact .inl ⟨_, rfl⟩
    · next hguard =>
      simp only [Bool.or_eq_true, decide_eq_true_eq, not_or, Nat.not_lt] at hguard
      exact .inr ⟨_, rfl, by omega, by omega⟩
  · exact .inr ⟨_, rfl, by omega, by omega⟩

theorem digit?_le {s : Symbol} {k : Nat} (h : digit? s = some k) : k ≤ 9 := by
  cases s with
  | junk b => cases h
  | char c =>
    simp only [digit?, Option.ite_none_right_eq_some, Option.some.injEq, Char.isDigit,
      Bool.and_eq_true, decide_eq_true_eq] at h
    obtain ⟨⟨-, hle⟩, h⟩ := h
    have hle : c.toNat ≤ '9'.toNat := hle
    have hnine : '9'.toNat = '0'.toNat + 9 := rfl
    omega

theorem exists_digits_skipDigits (d : Document) :
    ∃ ds, d = ds ++ skipDigits d ∧ ∀ s ∈ ds, isDigit s = true :=
  ⟨d.takeWhile isDigit, List.takeWhile_append_dropWhile.symm, fun _ => List.mem_takeWhile_imp⟩

theorem digits_of_startsWithDigit {d : Document} (h : startsWithDigit d = true) :
    ∃ ds, d = ds ++ skipDigits d ∧ Digits ds := by
  obtain ⟨ds, hd, hds⟩ := exists_digits_skipDigits d
  refine ⟨ds, hd, ?_, hds⟩
  rintro rfl
  have hfree : DigitFree d := hd ▸ eq_false_of_mem_head?_dropWhile
  rw [startsWithDigit_eq_false hfree] at h
  cases h

theorem Digits.append {ds more : Document} (hds : ∀ s ∈ ds, isDigit s = true) (h : Digits more) :
    Digits (ds ++ more) :=
  ⟨List.append_ne_nil_of_right_ne_nil _ h.1,
    fun s hs => (List.mem_append.mp hs).elim (hds s) (h.2 s)⟩

theorem exists_digits_collect (limit : Nat) : ∀ (d : Document) (value count : Nat),
    ∃ ds, d = ds ++ (collect limit value count d).rest ∧ (∀ s ∈ ds, isDigit s = true) ∧
      (collect limit value count d).count = count + ds.length ∧
      (value ≤ limit → (collect limit value count d).value ≤ limit)
  | [], value, count => ⟨[], rfl, fun s hs => (List.not_mem_nil hs).elim, rfl, id⟩
  | s :: d, value, count => by
    unfold collect
    split
    · next k hk =>
      split
      · next hle =>
        obtain ⟨ds, hd, hds, hcount, hvalue⟩ :=
          exists_digits_collect limit d (value * 10 + k) (count + 1)
        refine ⟨s :: ds, congrArg _ hd, ?_, by rw [hcount, List.length_cons]; omega,
          fun _ => hvalue hle⟩
        exact List.forall_mem_cons.mpr ⟨by rw [isDigit, hk]; rfl, hds⟩
      · exact ⟨[], rfl, fun s hs => (List.not_mem_nil hs).elim, rfl, id⟩
    · exact ⟨[], rfl, fun s hs => (List.not_mem_nil hs).elim, rfl, id⟩

theorem digits_cons {s : Symbol} {k : Nat} (hs : digit? s = some k) {ds : Document}
    (hds : ∀ s ∈ ds, isDigit s = true) : Digits (s :: ds) :=
  ⟨List.cons_ne_nil _ _, List.forall_mem_cons.mpr ⟨by rw [isDigit, hs]; rfl, hds⟩⟩

namespace Signed

variable {n : Signed} {e : Int} {d rest : Document} {v : Json}

theorem form_of_withExponent (h : n.withExponent e d = .ok (v, rest)) : rest = d ∧ Numeric v := by
  unfold withExponent at h
  split at h
  · cases h
    exact ⟨rfl, .inl ⟨_, rfl⟩⟩
  · cases h

theorem form_of_readExponentDigits {down : Bool}
    (h : n.readExponentDigits e down d = .ok (v, rest)) :
    ∃ ds, d = ds ++ rest ∧ Digits ds ∧ Numeric v := by
  unfold readExponentDigits at h
  split at h
  · cases h
  · next s d =>
    split at h
    · cases h
    · next k hk =>
      obtain ⟨ds, hd, hds, -⟩ := exists_digits_collect maxExponent d k 0
      dsimp only at h
      split at h
      · split at h
        · cases h
        · cases h
          obtain ⟨more, hrest, hmore⟩ := exists_digits_skipDigits (collect maxExponent k 0 d).rest
          refine ⟨s :: (ds ++ more), ?_, digits_cons hk fun s hs => ?_, .inl ⟨_, rfl⟩⟩
          · rw [List.cons_append, List.append_assoc, ← hrest, ← hd]
          · exact (List.mem_append.mp hs).elim (hds s) (hmore s)
      · obtain ⟨rfl, hv⟩ := form_of_withExponent h
        exact ⟨s :: ds, congrArg _ hd, digits_cons hk hds, hv⟩

theorem form_of_readExponent (h : n.readExponent e d = .ok (v, rest)) :
    ∃ sign ds, d = sign ++ ds ++ rest ∧ ExponentSign sign ∧ Digits ds ∧ Numeric v := by
  unfold readExponent at h
  split at h
  next down d' heq =>
    have hread : n.readExponentDigits e down d' = .ok (v, rest) := h
    obtain ⟨ds, rfl, hds, hv⟩ := form_of_readExponentDigits hread
    split at heq
    · cases heq; exact ⟨[.char '+'], ds, rfl, .inr (.inl rfl), hds, hv⟩
    · cases heq; exact ⟨[.char '-'], ds, rfl, .inr (.inr rfl), hds, hv⟩
    · cases heq; exact ⟨[], ds, rfl, .inl rfl, hds, hv⟩

theorem exponentText_cons {letter : Symbol} (hl : letter = .char 'e' ∨ letter = .char 'E')
    (h : n.readExponent e d = .ok (v, rest)) :
    ∃ t, letter :: d = t ++ rest ∧ ExponentText t ∧ Numeric v := by
  obtain ⟨sign, ds, rfl, hs, hds, hv⟩ := form_of_readExponent h
  exact ⟨letter :: (sign ++ ds), rfl, .inr ⟨letter, sign, ds, rfl, hl, hs, hds⟩, hv⟩

theorem form_of_readOptionalExponent (h : n.readOptionalExponent e d = .ok (v, rest)) :
    ∃ t, d = t ++ rest ∧ ExponentText t ∧ Numeric v := by
  unfold readOptionalExponent at h
  split at h
  · exact exponentText_cons (.inl rfl) h
  · exact exponentText_cons (.inr rfl) h
  · obtain ⟨rfl, hv⟩ := form_of_withExponent h
    exact ⟨[], rfl, .inl rfl, hv⟩

theorem form_of_readFraction (h : n.readFraction e d = .ok (v, rest)) :
    ∃ ds t, d = ds ++ t ++ rest ∧ Digits ds ∧ ExponentText t ∧ Numeric v := by
  obtain ⟨ds, hd, hds, hcount, -⟩ := exists_digits_collect maxDigits d n.digits 0
  unfold readFraction at h
  dsimp only at h
  split at h
  · next hmore =>
    obtain ⟨more, hrest, hdigits⟩ := digits_of_startsWithDigit hmore
    obtain ⟨t, ht, hform, hv⟩ := form_of_readOptionalExponent h
    refine ⟨ds ++ more, t, ?_, hdigits.append hds, hform, hv⟩
    rw [List.append_assoc, ← ht, List.append_assoc, ← hrest, ← hd]
  · split at h
    · split at h <;> cases h
    · next hcount0 =>
      obtain ⟨t, ht, hform, hv⟩ := form_of_readOptionalExponent h
      refine ⟨ds, t, by rw [List.append_assoc, ← ht, ← hd], ⟨?_, hds⟩, hform, hv⟩
      rintro rfl
      exact hcount0 hcount

end Signed

theorem form_of_readAfterWhole {n : Signed} {e : Int} {plain : Reader Json} {d rest : Document}
    {v : Json} (hp : plain d = .ok (v, rest) → rest = d ∧ Numeric v)
    (h : readAfterWhole n e plain d = .ok (v, rest)) :
    ∃ f t, d = f ++ t ++ rest ∧ FractionText f ∧ ExponentText t ∧ Numeric v := by
  unfold readAfterWhole at h
  split at h
  · obtain ⟨ds, t, rfl, hds, ht, hv⟩ := Signed.form_of_readFraction h
    exact ⟨.char '.' :: ds, t, rfl, .inr ⟨ds, rfl, hds⟩, ht, hv⟩
  · obtain ⟨t, ht, hform, hv⟩ := Signed.exponentText_cons (.inl rfl) h
    exact ⟨[], t, ht, .inl rfl, hform, hv⟩
  · obtain ⟨t, ht, hform, hv⟩ := Signed.exponentText_cons (.inr rfl) h
    exact ⟨[], t, ht, .inl rfl, hform, hv⟩
  · obtain ⟨rfl, hv⟩ := hp h
    exact ⟨[], [], rfl, .inl rfl, .inl rfl, hv⟩

theorem wholeText_cons {s : Symbol} {first : Nat} (hs : digit? s = some first) {ds : Document}
    (hds : ∀ s ∈ ds, isDigit s = true) (h0 : first = 0 → ds = []) : WholeText (s :: ds) := by
  refine ⟨digits_cons hs hds, fun hhead => ?_⟩
  obtain rfl := Option.some.inj hhead
  obtain rfl := h0 (Option.some.inj hs).symm
  rfl

theorem form_of_readNumber {negative : Bool} {d rest : Document} {v : Json}
    (h : readNumber negative d = .ok (v, rest)) :
    ∃ t, d = t ++ rest ∧ UnsignedText t ∧ Numeric v := by
  cases d with
  | nil => cases h
  | cons s d =>
    cases hs : digit? s with
    | none => simp only [readNumber, hs] at h; cases h
    | some first =>
      rw [readNumber_cons _ hs] at h
      split at h
      · cases h
      next hguard =>
        have hcollected : ∃ ds, d = ds ++ (if first = 0 then (⟨0, 0, d⟩ : Collected)
            else collect maxDigits first 0 d).rest ∧ (∀ s ∈ ds, isDigit s = true) ∧
            (first = 0 → ds = []) ∧ (if first = 0 then (⟨0, 0, d⟩ : Collected)
            else collect maxDigits first 0 d).value ≤ maxDigits := by
          split
          · exact ⟨[], rfl, fun s hs => (List.not_mem_nil hs).elim, fun _ => rfl, Nat.zero_le _⟩
          · next h0 =>
            obtain ⟨ds, hd, hds, -, hvalue⟩ := exists_digits_collect maxDigits d first 0
            exact ⟨ds, hd, hds, fun h => absurd h h0,
              hvalue (Nat.le_trans (digit?_le hs) (by decide))⟩
        have hleft (h0 : first = 0) : (if first = 0 then (⟨0, 0, d⟩ : Collected)
            else collect maxDigits first 0 d).rest = d := by rw [if_pos h0]
        generalize (if first = 0 then (⟨0, 0, d⟩ : Collected) else collect maxDigits first 0 d) = c
          at h hcollected hleft
        obtain ⟨ds, hd, hds, hnil, hvalue⟩ := hcollected
        dsimp only at h
        split at h
        · next hmore =>
          obtain ⟨more, hrest, hdigits⟩ := digits_of_startsWithDigit hmore
          obtain ⟨f, t, hft, hf, ht, hv⟩ := form_of_readAfterWhole Signed.form_of_withExponent h
          refine ⟨s :: (ds ++ more) ++ (f ++ t), ?_, ⟨_, f, t, rfl,
            wholeText_cons hs (hdigits.append hds).2 fun h0 => ?_, hf, ht⟩, hv⟩
          · rw [List.append_assoc, ← hft, List.cons_append, List.append_assoc, ← hrest, ← hd]
          · rw [hleft h0] at hmore
            exact absurd (by simp [h0, hmore]) hguard
        · obtain ⟨f, t, hft, hf, ht, hv⟩ := form_of_readAfterWhole
            (fun hplain => by cases hplain; exact ⟨rfl, Signed.numeric_whole hvalue⟩) h
          refine ⟨s :: ds ++ (f ++ t), ?_, ⟨_, f, t, rfl, wholeText_cons hs hds hnil, hf, ht⟩, hv⟩
          rw [List.append_assoc, ← hft, List.cons_append, ← hd]

/-! ## Skipping -/

theorem skipExponent_append {sign ds rest : Document} (hs : ExponentSign sign) (h : Digits ds)
    (hr : Ends rest) : skipExponent (sign ++ ds ++ rest) = .ok rest := by
  have hdigit := startsWithDigit_append h rest
  have hskip := skipDigits_append h.2 hr.digitFree
  unfold skipExponent
  rcases hs with rfl | rfl | rfl
  · obtain ⟨s, ds, rfl⟩ := List.exists_cons_of_ne_nil h.1
    dsimp only
    split
    · next heq => cases heq; cases hdigit
    · next heq => cases heq; cases hdigit
    · rw [List.nil_append, if_pos hdigit, hskip]
  · exact (if_pos hdigit).trans (congrArg Except.ok hskip)
  · exact (if_pos hdigit).trans (congrArg Except.ok hskip)

theorem skipOptionalExponent_append {t rest : Document} (h : ExponentText t) (hr : Ends rest) :
    skipOptionalExponent (t ++ rest) = .ok rest := by
  rcases h with rfl | ⟨letter, sign, ds, rfl, hl, hs, hd⟩
  · rw [List.nil_append, skipOptionalExponent]
    · exact hr.ne_cons rfl
    · exact hr.ne_cons rfl
  · rcases hl with rfl | rfl <;> exact skipExponent_append hs hd hr

theorem skipNumber_append {t rest : Document} (h : UnsignedText t) (hr : Ends rest) :
    skipNumber (t ++ rest) = .ok rest := by
  obtain ⟨whole, f, t, rfl, ⟨hw, hzero⟩, hf, ht⟩ := h
  have hfree := digitFree_fraction hf ht hr
  rw [List.append_assoc]
  have hguard : (decide ((whole ++ (f ++ t ++ rest)).head? = some (.char '0')) &&
      startsWithDigit (whole ++ (f ++ t ++ rest)).tail) = false := by
    obtain ⟨s, ds, rfl⟩ := List.exists_cons_of_ne_nil hw.1
    by_cases hs : s = .char '0'
    · obtain rfl : ds = [] := by simpa [hs] using hzero
      exact Bool.and_eq_false_imp.mpr fun _ => startsWithDigit_eq_false hfree
    · simp [hs]
  rw [skipNumber, startsWithDigit_append hw, hguard, skipDigits_append hw.2 hfree]
  rcases hf with rfl | ⟨ds, rfl, hds⟩
  · have hpoint (r : Document) : t ++ rest ≠ .char '.' :: r := by
      rcases ht with rfl | ⟨letter, sign, ds, rfl, rfl | rfl, -, -⟩
      · exact hr.ne_cons rfl r
      all_goals exact fun h => by cases h
    rw [List.nil_append]
    simp only [Bool.not_true, Bool.false_eq_true, if_false]
    exact skipOptionalExponent_append ht hr
  · have hdigit := startsWithDigit_append hds (t ++ rest)
    have hskip := skipDigits_append hds.2 (digitFree_exponent ht hr)
    rw [← List.append_assoc] at hdigit hskip
    exact (if_pos hdigit).trans ((congrArg skipOptionalExponent hskip).trans
      (skipOptionalExponent_append ht hr))

theorem form_of_skipExponent {d rest : Document} (h : skipExponent d = .ok rest) :
    ∃ sign ds, d = sign ++ ds ++ rest ∧ ExponentSign sign ∧ Digits ds := by
  have hdigits (d : Document)
      (h : (if startsWithDigit d then .ok (skipDigits d) else blameNext .invalidNumber d) =
        Except.ok rest) : ∃ ds, d = ds ++ rest ∧ Digits ds := by
    split at h
    · next hdigit =>
      cases h
      exact digits_of_startsWithDigit hdigit
    · cases h
  unfold skipExponent at h
  dsimp only at h
  split at h
  · obtain ⟨ds, rfl, hds⟩ := hdigits _ h
    exact ⟨[.char '+'], ds, rfl, .inr (.inl rfl), hds⟩
  · obtain ⟨ds, rfl, hds⟩ := hdigits _ h
    exact ⟨[.char '-'], ds, rfl, .inr (.inr rfl), hds⟩
  · obtain ⟨ds, rfl, hds⟩ := hdigits _ h
    exact ⟨[], ds, rfl, .inl rfl, hds⟩

theorem form_of_skipOptionalExponent {d rest : Document} (h : skipOptionalExponent d = .ok rest) :
    ∃ t, d = t ++ rest ∧ ExponentText t := by
  unfold skipOptionalExponent at h
  split at h
  · obtain ⟨sign, ds, rfl, hs, hds⟩ := form_of_skipExponent h
    exact ⟨_, rfl, .inr ⟨_, sign, ds, rfl, .inl rfl, hs, hds⟩⟩
  · obtain ⟨sign, ds, rfl, hs, hds⟩ := form_of_skipExponent h
    exact ⟨_, rfl, .inr ⟨_, sign, ds, rfl, .inr rfl, hs, hds⟩⟩
  · cases h
    exact ⟨[], rfl, .inl rfl⟩

theorem form_of_skipNumber {d rest : Document} (h : skipNumber d = .ok rest) :
    ∃ t, d = t ++ rest ∧ UnsignedText t := by
  unfold skipNumber at h
  split at h
  · cases h
  next hdigit =>
    split at h
    · cases h
    next hzero =>
      obtain ⟨whole, hd, hw⟩ := digits_of_startsWithDigit (d := d) (by simpa using hdigit)
      have hwhole : WholeText whole := by
        refine ⟨hw, fun hhead => ?_⟩
        obtain ⟨s, ds, rfl⟩ := List.exists_cons_of_ne_nil hw.1
        obtain rfl := Option.some.inj hhead
        cases ds with
        | nil => rfl
        | cons s' ds =>
          refine absurd ?_ hzero
          rw [hd]
          exact Bool.and_eq_true_iff.mpr ⟨rfl, hw.2 s' (by simp)⟩
      split at h
      · next r heq =>
        split at h
        · next hmore =>
          obtain ⟨ds, hr, hds⟩ := digits_of_startsWithDigit hmore
          obtain ⟨t, ht, hform⟩ := form_of_skipOptionalExponent h
          refine ⟨whole ++ (.char '.' :: ds ++ t), ?_, whole, _, t, rfl, hwhole,
            .inr ⟨ds, rfl, hds⟩, hform⟩
          rw [hd, heq, hr, ht]
          simp
        · cases h
      · obtain ⟨t, ht, hform⟩ := form_of_skipOptionalExponent h
        exact ⟨whole ++ ([] ++ t), by rw [List.append_assoc, List.nil_append, ← ht, ← hd], whole, [],
          t, rfl, hwhole, .inl rfl, hform⟩

/-! ## Whole numbers -/

theorem le_ofDigitChars : ∀ (cs : List Char) (value : Nat), value ≤ Nat.ofDigitChars 10 cs value
  | [], _ => Nat.le_refl _
  | c :: cs, value => by
    rw [Nat.ofDigitChars_cons]
    exact Nat.le_trans (by omega) (le_ofDigitChars cs _)

theorem collect_digitChars {limit : Nat} : ∀ (cs : List Char), (∀ c ∈ cs, c.isDigit = true) →
    ∀ value count, Nat.ofDigitChars 10 cs value ≤ limit →
      collect limit value count (cs.map .char) =
        ⟨Nat.ofDigitChars 10 cs value, count + cs.length, []⟩
  | [], _, _, _, _ => rfl
  | c :: cs, hcs, value, count, hlimit => by
    have hc : digit? (.char c) = some (c.toNat - '0'.toNat) := if_pos (hcs c List.mem_cons_self)
    rw [Nat.ofDigitChars_cons, Nat.mul_comm] at hlimit ⊢
    have hle := Nat.le_trans (le_ofDigitChars cs _) hlimit
    rw [List.map_cons, collect, hc]
    simp only [if_pos hle]
    rw [collect_digitChars cs (fun c h => hcs c (List.mem_cons_of_mem _ h)) _ _ hlimit]
    simp only [List.length_cons, Nat.add_assoc, Nat.add_comm 1]

theorem head?_toDigits (n : Nat) (hn : 0 < n) : (Nat.toDigits 10 n).head? ≠ some '0' := by
  induction n using Nat.strongRecOn with
  | ind n ih =>
    by_cases hlt : n < 10
    · have hdigit : ∀ k < 10, 0 < k → Nat.digitChar k ≠ '0' := by decide
      rw [Nat.toDigits_of_lt_base hlt]
      exact fun h => hdigit n hlt hn (Option.some.inj h)
    · have hle := Nat.le_of_not_lt hlt
      have hhead := ih (n / 10) (Nat.div_lt_self hn (by decide)) (Nat.div_pos hle (by decide))
      obtain ⟨c, cs, hcs⟩ := List.exists_cons_of_ne_nil (Nat.toDigits_ne_nil (n := n / 10) (b := 10))
      rw [Nat.toDigits_of_base_le (by decide) hle, hcs]
      rw [hcs] at hhead
      exact hhead

theorem toDigits_of_head? {n : Nat} (h : (Nat.toDigits 10 n).head? = some '0') :
    Nat.toDigits 10 n = ['0'] := by
  cases n with
  | zero => exact Nat.toDigits_zero 10
  | succ n => exact absurd h (head?_toDigits _ (Nat.succ_pos n))

/-- A number is read from its digits. -/
theorem readNumber_repr (negative : Bool) {n : Nat} (hn : n ≤ maxDigits) :
    readNumber negative (Document.ofText n.repr) = .ok ((⟨negative, n⟩ : Signed).whole, []) := by
  have hdigits : ∀ c ∈ Nat.toDigits 10 n, c.isDigit = true :=
    fun c hc => Nat.isDigit_of_mem_toDigits (by decide) (by decide) hc
  have hvalue : Nat.ofDigitChars 10 (Nat.toDigits 10 n) 0 = n :=
    Nat.ofDigitChars_toDigits (by decide) (by decide)
  have hzero := @toDigits_of_head? n
  rw [Document.ofText, Nat.toList_repr]
  obtain ⟨c, cs, hcs⟩ := List.exists_cons_of_ne_nil (Nat.toDigits_ne_nil (n := n) (b := 10))
  rw [hcs] at hdigits hvalue hzero ⊢
  rw [Nat.ofDigitChars_cons, Nat.mul_zero, Nat.zero_add] at hvalue
  have hc : digit? (.char c) = some (c.toNat - '0'.toNat) := if_pos (hdigits c List.mem_cons_self)
  -- a zero at the start is the only digit
  have hnil (h0 : c.toNat - '0'.toNat = 0) : cs = [] := by
    obtain rfl : c = '0' := Symbol.char.inj (digit?_eq_zero (hc.trans (congrArg some h0)))
    exact (List.cons.inj (hzero rfl)).2
  have hcollect : collect maxDigits (c.toNat - '0'.toNat) 0 (cs.map .char) = ⟨n, cs.length, []⟩ := by
    rw [collect_digitChars cs (fun c h => hdigits c (List.mem_cons_of_mem _ h)) _ _ (by omega),
      hvalue, Nat.zero_add]
  rw [List.map_cons, readNumber_cons _ hc]
  by_cases h0 : c.toNat - '0'.toNat = 0
  · obtain rfl := hnil h0
    obtain rfl : c.toNat - '0'.toNat = n := hvalue
    simp only [h0]
    rfl
  · simp only [h0, hcollect]
    rfl

end MicroFrontends.Json
