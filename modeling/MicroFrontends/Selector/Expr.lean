import MicroFrontends.Dict

/-!
# Selector expressions

* `Labelled` : things that carry labels, which are what selectors are tried on;
* `Expr` : a boolean condition on labels, and `Expr.holds`, its meaning.

`label!=value` is the negation of `label=value`, so a thing without the label satisfies it.
-/

namespace MicroFrontends

/-- Things that carry labels: names with a text as value. -/
class Labelled (α : Type) where
  label? : α → String → Option String

instance : Labelled (Dict String) where
  label? := Dict.get?

/-- Labels that are left out are no labels. -/
instance {α : Type} [Labelled α] : Labelled (Option α) where
  label? labels name := labels.bind (Labelled.label? · name)

/-- A condition on labels. -/
inductive Expr where
  /-- The label is there, with any value. -/
  | present (label : String)
  /-- The label is there with exactly this value. -/
  | equals (label value : String)
  | not (arg : Expr)
  | and (lhs rhs : Expr)
  | or (lhs rhs : Expr)
deriving DecidableEq, Repr, Inhabited

/-- The condition holds of labels, given by the value of each name. -/
def Expr.holds (label? : String → Option String) : Expr → Bool
  | present label => (label? label).isSome
  | equals label value => label? label == some value
  | not arg => !arg.holds label?
  | and lhs rhs => lhs.holds label? && rhs.holds label?
  | or lhs rhs => lhs.holds label? || rhs.holds label?

end MicroFrontends
