import MicroFrontends.Catalog.Encode

/-!
# What has to be loaded

A `DependencyPlan` lists the stylesheets to link, in the order of the modules that need them, and
the scripts to load, each one once.
-/

namespace MicroFrontends

/-- Stylesheets and scripts. -/
structure DependencyPlan where
  styles : List String
  modules : List String
deriving DecidableEq, Repr, Inhabited

namespace DependencyPlan

/-- What the modules of some things need. -/
def ofList {α : Type} [HasModule α] (entries : List α) : DependencyPlan :=
  let modules := entries.map HasModule.moduleOf
  { styles := modules.flatMap fun m => m.styles.getD []
    modules := ((modules.map Module.loadUrl).filter (· ≠ "")).eraseDups }

def isEmpty (p : DependencyPlan) : Bool := p.styles.isEmpty && p.modules.isEmpty

def toJson (p : DependencyPlan) : Json :=
  .object [("styles", .ofTexts p.styles), ("modules", .ofTexts p.modules)]

end DependencyPlan

end MicroFrontends
