import MicroFrontends.Json.Reader
import MicroFrontends.Proofs.Outcome
import MicroFrontends.Proofs.Runs

/-!
# What a reader makes of a text

A reader works on a whole document, in which the text of a value has blanks before it and something
after it that cannot be a part of it. `Makes f t x` says that none of this matters: of the text `t`
the reader `f` makes `x`, and leaves what comes after it. So the reader makes of the text in a
document what it makes of the text alone (`Makes.whole?_eq`).
-/

namespace MicroFrontends.Json

/-! ## Blanks -/

/-- There are only blanks in it. -/
def Blank (d : Document) : Prop := ∀ s ∈ d, isSpace s = true

theorem blank_nil : Blank [] := fun _ h => by cases h

theorem Blank.append {d e : Document} (hd : Blank d) (he : Blank e) : Blank (d ++ e) := by
  intro s hs
  rcases List.mem_append.mp hs with h | h
  · exact hd s h
  · exact he s h

/-- The document starts with a symbol that is no blank, or is at its end. -/
def Solid (d : Document) : Prop := ∀ s ∈ d.head?, isSpace s = false

theorem solid_cons {s : Symbol} {d : Document} (h : isSpace s = false) : Solid (s :: d) := by
  intro s' hs
  obtain rfl := Option.some.inj hs
  exact h

theorem skipSpace_append {blank d : Document} (hb : Blank blank) (hd : Solid d) :
    skipSpace (blank ++ d) = d := dropWhile_run hb hd

theorem skipSpace_blank {blank : Document} (hb : Blank blank) : skipSpace blank = [] := by
  have h := skipSpace_append hb (d := []) fun s hs => by cases hs
  rwa [List.append_nil] at h

/-! ## What may follow a value -/

/-- A symbol that may follow a value. -/
def isDelimiter (s : Symbol) : Bool :=
  isSpace s || s = .char ',' || s = .char ']' || s = .char '\x7d'

/-- What is left after a value. -/
def Ends (d : Document) : Prop := ∀ s ∈ d.head?, isDelimiter s = true

theorem ends_nil : Ends [] := fun _ h => by cases h

theorem ends_cons {s : Symbol} {d : Document} (h : isDelimiter s = true) : Ends (s :: d) := by
  intro s' hs
  obtain rfl := Option.some.inj hs
  exact h

theorem Ends.ne_cons {d : Document} (h : Ends d) {s : Symbol} (hs : isDelimiter s = false)
    (rest : Document) : d ≠ s :: rest := by
  rintro rfl
  exact Bool.false_ne_true (hs.symm.trans (h s rfl))

theorem Blank.ends_append {blank d : Document} (hb : Blank blank) (hd : Ends d) :
    Ends (blank ++ d) := by
  cases blank with
  | nil => exact hd
  | cons s blank => exact ends_cons (by simp [isDelimiter, hb s List.mem_cons_self])

theorem Blank.ends {blank : Document} (hb : Blank blank) : Ends blank := by
  simpa using hb.ends_append ends_nil

/-! ## Readers -/

variable {α β : Type}

/-- What a reader makes of a text that stands alone. -/
def whole? (f : Reader α) (t : Document) : Option α := (f t).toOption.map Prod.fst

/-- What the reader makes of the text does not depend on what comes after it. -/
def Reads (f : Reader α) (t : Document) : Prop :=
  ∃ x : Option α, ∀ rest, Ends rest → (f (t ++ rest)).toOption = x.map (·, rest)

theorem Reads.eq {f : Reader α} {t rest : Document} (h : Reads f t) (hr : Ends rest) :
    (f (t ++ rest)).toOption = (whole? f t).map (·, rest) := by
  obtain ⟨x, hx⟩ := h
  have halone := hx [] ends_nil
  rw [List.append_nil] at halone
  rw [hx rest hr, whole?, halone]
  cases x <;> rfl

/-- The reader makes `x` of the text, whatever blanks are before it and whatever comes after it. -/
def Makes (f : Reader α) (t : Document) (x : Option α) : Prop :=
  ∀ blank rest, Blank blank → Ends rest → (f (blank ++ t ++ rest)).toOption = x.map (·, rest)

/-- The reader makes of the text in any document what it makes of the text alone. -/
def Exact (f : Reader α) (t : Document) : Prop := Makes f t (whole? f t)

namespace Makes

variable {f : Reader α} {t : Document} {x : Option α}

theorem at_start (h : Makes f t x) {rest : Document} (hr : Ends rest) :
    (f (t ++ rest)).toOption = x.map (·, rest) := h [] rest blank_nil hr

theorem alone (h : Makes f t x) : (f t).toOption = x.map (·, []) := by
  simpa using h.at_start ends_nil

theorem whole?_eq (h : Makes f t x) : whole? f t = x := by
  rw [whole?, h.alone, Option.map_map]
  exact Option.map_id'

theorem exact (h : Makes f t x) : Exact f t := by
  rw [Exact, h.whole?_eq]
  exact h

/-- What a reader makes of a text is in a document the result and what follows the text. -/
theorem eq_ok_iff {a : α} (h : Makes f t x) {blank rest r : Document} (hb : Blank blank)
    (hr : Ends rest) : f (blank ++ t ++ rest) = .ok (a, r) ↔ whole? f t = some a ∧ r = rest := by
  rw [← Except.toOption_eq_some, h blank rest hb hr, h.whole?_eq]
  cases x with
  | none => simp
  | some b => simp [eq_comm]

end Makes

end MicroFrontends.Json
