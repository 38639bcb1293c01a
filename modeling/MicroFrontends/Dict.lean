/-!
# Dictionaries

`Dict α` maps texts to values of `α`. It is a list of entries in increasing order of their keys,
so two dictionaries with the same entries are equal, and entries are listed in key order whatever
the order of insertion. `Dict.insert` replaces an entry with the same key.
-/

namespace MicroFrontends

/-- A mapping from texts to values, as its entries in increasing order of keys. -/
abbrev Dict (α : Type) := List (String × α)

namespace Dict

variable {α : Type}

/-- The value of a key. -/
def get? (d : Dict α) (key : String) : Option α := List.lookup key d

/-- The dictionary with one entry added, or replaced if there is one with its key. -/
def insert (d : Dict α) (key : String) (value : α) : Dict α :=
  match d with
  | [] => [(key, value)]
  | (k, v) :: d =>
    if key < k then (key, value) :: (k, v) :: d
    else if key = k then (key, value) :: d
    else (k, v) :: insert d key value

/-- The dictionary of a list of entries, of which the last one with a key counts. -/
def ofEntries (entries : List (String × α)) : Dict α :=
  entries.foldl (fun d e => d.insert e.1 e.2) []

end Dict

end MicroFrontends
