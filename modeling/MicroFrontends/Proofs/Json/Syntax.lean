import MicroFrontends.Json.Read
import MicroFrontends.Proofs.Json.Number
import MicroFrontends.Proofs.Json.Text

/-!
# The form of a single value

`ScalarText t` says that `t` has the form of a value that is neither an array nor an object. Such a
text is used up whether it is read or skipped (`ScalarText.reads`, `ScalarText.skipScalar`), and
nothing else is (`scalarText_of_readScalar`, `scalarText_of_skipScalar`). Escaped texts need not be
readable and numbers need not be in range.
-/

namespace MicroFrontends.Json

/-! ## The start of a value -/

/-- The text starts with a symbol that can be the first one of a value. -/
def Starts (t : Document) : Prop := ∃ s ∈ t.head?, isDelimiter s = false

theorem starts_cons {s : Symbol} {t : Document} (h : isDelimiter s = false) : Starts (s :: t) :=
  ⟨s, rfl, h⟩

theorem isSpace_of_not_isDelimiter {s : Symbol} (h : isDelimiter s = false) : isSpace s = false := by
  simp only [isDelimiter, Bool.or_eq_false_iff] at h
  exact h.1.1.1

namespace Starts

variable {t : Document}

theorem append (h : Starts t) (rest : Document) : Starts (t ++ rest) := by
  obtain ⟨s, hs, hd⟩ := h
  cases t with
  | nil => cases hs
  | cons s' t => exact ⟨s, hs, hd⟩

theorem solid (h : Starts t) : Solid t := by
  obtain ⟨s, hs, hd⟩ := h
  intro s' hs'
  obtain rfl : s = s' := Option.some.inj (hs.symm.trans hs')
  exact isSpace_of_not_isDelimiter hd

theorem ne_nil (h : Starts t) : t ≠ [] := by
  rintro rfl
  obtain ⟨s, hs, -⟩ := h
  cases hs

theorem ne_cons (h : Starts t) {s : Symbol} (hs : isDelimiter s = true) (rest : Document) :
    t ≠ s :: rest := by
  rintro rfl
  obtain ⟨s', hs', hd⟩ := h
  obtain rfl := Option.some.inj hs'
  rw [hs] at hd
  cases hd

theorem skipSpace (h : Starts t) {blank : Document} (hb : Blank blank) (rest : Document) :
    skipSpace (blank ++ t ++ rest) = t ++ rest := by
  rw [List.append_assoc]
  exact skipSpace_append hb (h.append rest).solid

end Starts

/-! ## Words -/

theorem readWord_append : ∀ (cs : List Char) (rest : Document),
    readWord cs (cs.map .char ++ rest) = .ok rest
  | [], _ => rfl
  | _ :: cs, rest => (if_pos rfl).trans (readWord_append cs rest)

theorem form_of_readWord : ∀ {cs : List Char} {d rest : Document}, readWord cs d = .ok rest →
    d = cs.map .char ++ rest
  | [], _, _, h => Except.ok.inj h
  | _ :: _, [], _, h => by cases h
  | c :: cs, s :: d, rest, h => by
    unfold readWord at h
    split at h
    · next hs => rw [hs, form_of_readWord h]; rfl
    · cases h

/-! ## Single values -/

/-- The form of a value that is neither an array nor an object. -/
inductive ScalarText : Document → Prop
  | null : ScalarText (.char 'n' :: ['u', 'l', 'l'].map .char)
  | yes : ScalarText (.char 't' :: ['r', 'u', 'e'].map .char)
  | no : ScalarText (.char 'f' :: ['a', 'l', 's', 'e'].map .char)
  | number {t : Document} : NumberText t → ScalarText t
  | text {t : Document} : Quoted t → ScalarText (.char '"' :: t)

theorem UnsignedText.exists_cons {t : Document} (h : UnsignedText t) :
    ∃ s t', t = s :: t' ∧ isDigit s = true := by
  obtain ⟨whole, f, e, rfl, ⟨⟨hne, hdigits⟩, -⟩, -, -⟩ := h
  obtain ⟨s, ds, rfl⟩ := List.exists_cons_of_ne_nil hne
  exact ⟨s, _, rfl, hdigits s List.mem_cons_self⟩

theorem not_isDelimiter_of_isDigit {s : Symbol} (h : isDigit s = true) : isDelimiter s = false := by
  cases hd : isDelimiter s with
  | false => rfl
  | true =>
    rw [isDigit_of_isDelimiter hd] at h
    cases h

theorem readScalar_digit {s : Symbol} (hs : isDigit s = true) (d : Document) :
    readScalar (s :: d) = readNumber false (s :: d) := by
  rw [readScalar, if_pos hs]
  all_goals
    rintro rfl
    cases hs

theorem skipScalar_digit {s : Symbol} (hs : isDigit s = true) (d : Document) :
    skipScalar (s :: d) = skipNumber (s :: d) := by
  rw [skipScalar, if_pos hs]
  all_goals
    rintro rfl
    cases hs

namespace ScalarText

variable {t : Document}

/-- A single value starts with a symbol that can start a value, and with no bracket. -/
theorem start (h : ScalarText t) : ∃ s t', t = s :: t' ∧ isDelimiter s = false ∧
    s ≠ .char '[' ∧ s ≠ .char '\x7b' := by
  cases h with
  | number hn =>
    rcases hn with hu | ⟨u, rfl, hu⟩
    · obtain ⟨s, t', rfl, hs⟩ := hu.exists_cons
      refine ⟨s, t', rfl, not_isDelimiter_of_isDigit hs, ?_, ?_⟩
      all_goals
        rintro rfl
        cases hs
    · exact ⟨_, _, rfl, rfl, by decide, by decide⟩
  | _ => exact ⟨_, _, rfl, rfl, by decide, by decide⟩

theorem reads (h : ScalarText t) : Reads readScalar t := by
  cases h with
  | null => exact ⟨some .null, fun rest _ => by
      rw [List.cons_append, readScalar, readWord_append]; rfl⟩
  | yes => exact ⟨some (.bool true), fun rest _ => by
      rw [List.cons_append, readScalar, readWord_append]; rfl⟩
  | no => exact ⟨some (.bool false), fun rest _ => by
      rw [List.cons_append, readScalar, readWord_append]; rfl⟩
  | number hn =>
    rcases hn with hu | ⟨u, rfl, hu⟩
    · obtain ⟨x, hx⟩ := reads_number false hu
      obtain ⟨s, t', rfl, hs⟩ := hu.exists_cons
      exact ⟨x, fun rest hr => by rw [← hx rest hr, List.cons_append, readScalar_digit hs]⟩
    · obtain ⟨x, hx⟩ := reads_number true hu
      exact ⟨x, hx⟩
  | @text t hq =>
    refine ⟨(whole? readText t).map .string, fun rest _ => ?_⟩
    rw [List.cons_append, readScalar, Except.toOption_bind, readText_quoted hq]
    cases whole? readText t <;> rfl

theorem skipScalar (h : ScalarText t) {rest : Document} (hr : Ends rest) :
    skipScalar (t ++ rest) = .ok rest := by
  cases h with
  | number hn =>
    rcases hn with hu | ⟨u, rfl, hu⟩
    · obtain ⟨s, t', rfl, hs⟩ := hu.exists_cons
      rw [List.cons_append, skipScalar_digit hs, ← List.cons_append, skipNumber_append hu hr]
    · exact skipNumber_append hu hr
  | text hq => exact skipText_quoted hq rest
  | _ => exact readWord_append _ rest

end ScalarText

theorem scalarText_of_readScalar {d rest : Document} {v : Json} (h : readScalar d = .ok (v, rest)) :
    ∃ t, d = t ++ rest ∧ ScalarText t := by
  unfold readScalar at h
  split at h
  · obtain ⟨r, hword, h⟩ := Except.bind_eq_ok.mp h
    cases h
    exact ⟨_, congrArg _ (form_of_readWord hword), .null⟩
  · obtain ⟨r, hword, h⟩ := Except.bind_eq_ok.mp h
    cases h
    exact ⟨_, congrArg _ (form_of_readWord hword), .yes⟩
  · obtain ⟨r, hword, h⟩ := Except.bind_eq_ok.mp h
    cases h
    exact ⟨_, congrArg _ (form_of_readWord hword), .no⟩
  · obtain ⟨t, rfl, ht, -⟩ := form_of_readNumber h
    exact ⟨_ :: t, rfl, .number (.inr ⟨t, rfl, ht⟩)⟩
  · obtain ⟨⟨s, r⟩, htext, h⟩ := Except.bind_eq_ok.mp h
    cases h
    obtain ⟨t, rfl, hq⟩ := quoted_of_readText htext
    exact ⟨_ :: t, rfl, .text hq⟩
  · cases h
  · split at h
    · obtain ⟨t, ht, hform, -⟩ := form_of_readNumber h
      exact ⟨t, ht, .number (.inl hform)⟩
    · cases h

theorem scalarText_of_skipScalar {d rest : Document} (h : skipScalar d = .ok rest) :
    ∃ t, d = t ++ rest ∧ ScalarText t := by
  unfold skipScalar at h
  split at h
  · exact ⟨_, congrArg _ (form_of_readWord h), .null⟩
  · exact ⟨_, congrArg _ (form_of_readWord h), .yes⟩
  · exact ⟨_, congrArg _ (form_of_readWord h), .no⟩
  · obtain ⟨t, rfl, ht⟩ := form_of_skipNumber h
    exact ⟨_ :: t, rfl, .number (.inr ⟨t, rfl, ht⟩)⟩
  · obtain ⟨t, rfl, hq⟩ := quoted_of_skipText h
    exact ⟨_ :: t, rfl, .text hq⟩
  · cases h
  · split at h
    · obtain ⟨t, ht, hform⟩ := form_of_skipNumber h
      exact ⟨t, ht, .number (.inl hform)⟩
    · cases h

end MicroFrontends.Json
