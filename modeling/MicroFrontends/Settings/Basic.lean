import MicroFrontends.Json.Record
import MicroFrontends.Policy
import MicroFrontends.Selector.Decode

/-!
# Settings

`Settings` are what a user sets once for all calls: where the shell is served, which selector every
listing passes first, which context holds the shell, and what becomes of selectors that are not
valid. They are stored as JSON, each under its name.
-/

namespace MicroFrontends

open Json

/-- A policy as its name. -/
def InvalidSelectorPolicy.decoder : Decoder InvalidSelectorPolicy := .variant variants

/-- What a user sets once for all calls. -/
structure Settings where
  /-- The path under which the shell is served. -/
  basePath : String
  pageSelector : Selector
  /-- The context whose first element is the shell. -/
  shellContext : String
  invalidSelector : InvalidSelectorPolicy
deriving DecidableEq

namespace Settings

/-- The settings that hold where nothing is set. -/
def standard : Settings := ⟨"/", .all, "application-shell", .fail⟩

instance : Inhabited Settings := ⟨standard⟩

/-! ## Names -/

def basePathKey : String := "base-path"

def pageSelectorKey : String := "page-selector"

def shellContextKey : String := "shell-context"

def invalidSelectorKey : String := "invalid-selector"

/-! ## JSON -/

/-- Each setting under its name. -/
def members (s : Settings) : List (String × Json) :=
  [(basePathKey, .string s.basePath), (pageSelectorKey, .string s.pageSelector.render),
    (shellContextKey, .string s.shellContext), (invalidSelectorKey, .string s.invalidSelector.name)]

def toJson (s : Settings) : Json := .object s.members

/-- What is known of settings while they are read. -/
structure Draft where
  basePath : Option String := none
  pageSelector : Option Selector := none
  shellContext : Option String := none
  invalidSelector : Option InvalidSelectorPolicy := none

def record : Record Draft Settings where
  name := "Settings"
  start := {}
  slots := [
    .of basePathKey Draft.basePath (fun d v => { d with basePath := some v }) .text false,
    .of pageSelectorKey Draft.pageSelector (fun d v => { d with pageSelector := some v })
      Selector.decoder false,
    .of shellContextKey Draft.shellContext (fun d v => { d with shellContext := some v })
      .text false,
    .of invalidSelectorKey Draft.invalidSelector (fun d v => { d with invalidSelector := some v })
      InvalidSelectorPolicy.decoder false]
  isOpen := false
  finish d _ := do
    return ⟨← require basePathKey d.basePath, d.pageSelector.getD .all,
      ← require shellContextKey d.shellContext, ← require invalidSelectorKey d.invalidSelector⟩

def decoder : Decoder Settings := record.decoder

end Settings

end MicroFrontends
