import MicroFrontends.Registry.Dependencies
import MicroFrontends.Registry.Filtering

/-!
# The registry

A `Registry` answers questions about a catalog: which applications can be navigated to from a
location, which elements belong to a context, which shell hosts a page, what to load up front, and
who the user is. Every listing passes the page selector first.
-/

namespace MicroFrontends

/-- How a registry is set up. -/
structure RegistryOptions where
  /-- The path under which the shell is served. -/
  basePath : String
  pageSelector : Selector
  invalidSelector : InvalidSelectorPolicy
deriving Inhabited

/-- A catalog, the base path of its applications, and the filter of its listings. -/
structure Registry where
  catalog : Catalog
  basePath : String
  filter : PageFilter
deriving Inhabited

/-- An application of a listing. -/
structure NavigableApp where
  app : App
  /-- The location lies under the application's path. -/
  isActive : Bool
deriving Inhabited

instance : Labelled NavigableApp where
  label? entry := Labelled.label? entry.app

def NavigableApp.toJson (entry : NavigableApp) : Json :=
  .object (entry.app.members ++ [("isActive", .bool entry.isActive)])

/-- A path with a slash at its start and at its end. -/
def normalizeBasePath (path : String) : String :=
  let rooted := if path.toList.head? = some '/' then path else "/" ++ path
  if rooted.toList.getLast? = some '/' then rooted else rooted ++ "/"

/-- The text without a slash at its start. -/
def withoutLeadingSlash (path : String) : String :=
  match path.toList with
  | '/' :: rest => String.ofList rest
  | _ => path

namespace Registry

/-- The registry of a catalog. -/
def create (catalog : Catalog) (options : RegistryOptions) : Logged Registry := do
  let basePath := normalizeBasePath options.basePath
  Logged.note (.registry catalog.apps.length catalog.contexts.length basePath
    options.pageSelector.render)
  return ⟨catalog, basePath, ⟨options.pageSelector, options.invalidSelector⟩⟩

variable (r : Registry)

/-- A path below the base path. -/
def rebase (path : String) : String := r.basePath ++ withoutLeadingSlash path

/-- The entries that match the page selector and the selector of a call. -/
def filterEntries {α : Type} [Labelled α] (entries : List α) (selector : String) :
    Logged (List α) :=
  r.filter.apply entries selector

/-- The entries of a listing that match one more selector. -/
def refine {α : Type} [Labelled α] (entries : List α) (selector : String) : Logged (List α) :=
  r.filter.refine entries selector

/-- The first of two applications may be listed before the second. -/
def listedBefore (a b : App) : Bool := b.priority.orderKey ≤ a.priority.orderKey

/-- The application with the answer whether a location lies under its path. -/
def navigable (location : String) (app : App) : NavigableApp :=
  ⟨app, (r.rebase app.path).toList.isPrefixOf location.toList⟩

/-- The applications that match a selector, those of a higher priority first and otherwise in the
order of the catalog. -/
def navigableApps (selector location : String) : Logged (List NavigableApp) := do
  let apps ← r.filterEntries r.catalog.apps selector
  return (apps.mergeSort listedBefore).map (r.navigable location)

/-- The elements of a context that match a selector. -/
def contextElements (context selector : String) : Logged (List ContextElement) := do
  let elements ← r.filterEntries r.catalog.contexts selector
  return elements.filter (·.isIn context)

/-- The element that hosts a page: the first one of the shell's context, or else the default. -/
def shell (context : String) : Logged ContextElement := do
  match ← r.contextElements context "" with
  | shell :: _ => return shell
  | [] => do
    Logged.note (.noShell context)
    return .defaultShell

/-- What to load before anything is shown. -/
def preloadPlan : DependencyPlan := .ofList r.catalog.preload

/-- The user is not signed in: as the catalog says, or else if it names no user. -/
def isAnonymous : Bool := r.catalog.anonymous.getD r.catalog.user.isNone

end Registry

end MicroFrontends
