/-!
# What to do with a selector that is not valid

An `InvalidSelectorPolicy` says what becomes of a listing when a selector that a caller supplied
cannot be parsed.
-/

namespace MicroFrontends

/-- What to do with a caller's selector that cannot be parsed. -/
inductive InvalidSelectorPolicy where
  /-- Report the error. -/
  | fail
  /-- Take it for a selector that nothing matches. -/
  | matchNone
  /-- Take it for a selector that everything matches. -/
  | matchAll
deriving DecidableEq, Repr, Inhabited

namespace InvalidSelectorPolicy

/-- The name that settings and the command line use. -/
def name : InvalidSelectorPolicy → String
  | fail => "fail"
  | matchNone => "match-none"
  | matchAll => "match-all"

/-- All policies with their names. -/
def variants : List (String × InvalidSelectorPolicy) :=
  [fail, matchNone, matchAll].map fun p => (p.name, p)

def ofName? (name : String) : Option InvalidSelectorPolicy := variants.lookup name

end InvalidSelectorPolicy

end MicroFrontends
