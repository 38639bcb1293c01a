import MicroFrontends.Log
import MicroFrontends.Selector.Basic

/-!
# Filtering by page and by call

Entries pass a page selector, which is set up once, and then the selectors of a call, which come as
texts. A `PageFilter` holds the page selector and the policy for texts that are no selector.

* `PageFilter.apply` : the page selector and the first selector of a call;
* `PageFilter.refine` : one more selector of the same call.
-/

namespace MicroFrontends

/-- The selector of a page, and what to do with selectors of calls that cannot be parsed. -/
structure PageFilter where
  page : Selector
  policy : InvalidSelectorPolicy
deriving DecidableEq, Repr, Inhabited

namespace PageFilter

/-- The selector for a text, or none if nothing shall match. -/
def resolve (f : PageFilter) (text : String) : Logged (Option Selector) :=
  match Selector.parse text with
  | .ok selector => ⟨.ok (some selector), []⟩
  | .error error =>
    match f.policy with
    | .fail => ⟨.error (.selector text error), []⟩
    | .matchNone => ⟨.ok none, [.invalidSelector .matchNone text error]⟩
    | .matchAll => ⟨.ok (some .all), [.invalidSelector .matchAll text error]⟩

variable {α : Type} [Labelled α]

/-- The entries that match a selector, if there is one. -/
def keep (selector : Option Selector) (entries : List α) : List α :=
  match selector with
  | some selector => selector.filter entries
  | none => []

/-- The entries that match one more selector of a call. -/
def refine (f : PageFilter) (entries : List α) (text : String) : Logged (List α) := do
  return keep (← f.resolve text) entries

/-- The entries that match the page selector and the selector of a call. -/
def apply (f : PageFilter) (entries : List α) (text : String) : Logged (List α) := do
  let selector ← f.resolve text
  return keep selector (f.page.filter entries)

end PageFilter

end MicroFrontends
