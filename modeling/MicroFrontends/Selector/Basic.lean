import MicroFrontends.Selector.Parser
import MicroFrontends.Selector.Printer

/-!
# Selectors

A `Selector` is an expression or, from blank text, the empty selector that everything matches.

* `Selector.parse` and `Selector.render` : its text, where nothing but padding is the empty selector,
  and the padding is what the lexer skips (`Selector.parse_eq`);
* `Selector.filter` : the entries that match, in their order;
* `filterBy` : the same with the selector as text.
-/

namespace MicroFrontends

/-- A condition on labels as callers give it: possibly none at all. -/
structure Selector where
  expr? : Option Expr
deriving DecidableEq, Repr, Inhabited

namespace Selector

/-- The selector that everything matches. -/
def all : Selector := ⟨none⟩

/-- The characters that are trimmed off a text before it is taken for the empty selector. -/
def padding : List Char := [' ', '\t', '\r', '\n', '\x0c']

/-- The text without padding at its start and its end. -/
def trim (text : List Char) : List Char :=
  ((text.dropWhile padding.contains).reverse.dropWhile padding.contains).reverse

/-- Reads selector text. One that has nothing but padding is the empty selector. -/
def parse (source : String) : Except SelectorError Selector :=
  if (trim source.toList).isEmpty then .ok all else (Expr.parse source).map (⟨some ·⟩)

/-- The padding is what the lexer skips between tokens. -/
theorem contains_padding (c : Char) : padding.contains c = isBlank c := by
  rw [Bool.eq_iff_iff]
  simp [padding, isBlank, or_assoc]

theorem isEmpty_dropWhile_isBlank (text : List Char) :
    (text.dropWhile isBlank).isEmpty = text.all isBlank := by
  induction text with
  | nil => rfl
  | cons c text ih => cases hc : isBlank c <;> simp [hc, ih]

theorem isEmpty_trim (text : List Char) : (trim text).isEmpty = text.all isBlank := by
  have hpadding : padding.contains = isBlank := funext contains_padding
  have hstart : (text.dropWhile isBlank).all isBlank = text.all isBlank := by
    have h := List.any_dropWhile (p := isBlank) (l := text)
    rw [← List.not_all_eq_any_not] at h
    exact Bool.not_inj h
  rw [trim, List.isEmpty_reverse, hpadding, isEmpty_dropWhile_isBlank, List.all_reverse, hstart]

theorem parse_eq (source : String) :
    parse source =
      if source.toList.all isBlank then .ok all else (Expr.parse source).map (⟨some ·⟩) := by
  rw [parse, isEmpty_trim]

/-- The selector has no condition. -/
def isEmpty (s : Selector) : Bool := s.expr?.isNone

/-- The selector's text; the empty selector has the empty one. -/
def render (s : Selector) : String := (s.expr?.map Expr.render).getD ""

variable {α : Type} [Labelled α]

/-- The entry's labels satisfy the condition, if there is one. -/
def isMatch (s : Selector) (entry : α) : Bool :=
  s.expr?.all (·.holds (Labelled.label? entry))

/-- The entries that match, in their order. -/
def filter (s : Selector) (entries : List α) : List α := entries.filter s.isMatch

end Selector

/-- The entries that match a selector given as text, in their order. -/
def filterBy {α : Type} [Labelled α] (entries : List α) (selector : String) :
    Except SelectorError (List α) :=
  (Selector.parse selector).map (·.filter entries)

end MicroFrontends
