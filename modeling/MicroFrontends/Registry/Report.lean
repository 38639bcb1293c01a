import MicroFrontends.Registry.Basic
import MicroFrontends.Registry.Html
import MicroFrontends.Writing

/-!
# Reports

`Report.write` writes what was asked of a registry as text or as JSON: a listing of applications or
of a context's elements, the modules to load up front, the shell, or the user. Applications,
elements and the shell can also be written as HTML. `Report.run` is the text that was written, if
nothing failed. `checkSelector` writes a selector in canonical form.
-/

namespace MicroFrontends

/-- What is listed. -/
inductive ListKind where
  | apps
  | contexts
  | preload
  | shell
  | user
deriving DecidableEq, Repr, Inhabited

/-- The name that the log uses. -/
def ListKind.title : ListKind → String
  | apps => "Apps"
  | contexts => "Contexts"
  | preload => "Preload"
  | shell => "Shell"
  | user => "User"

/-- All kinds with the names that the command line uses. -/
def ListKind.variants : List (String × ListKind) :=
  [("apps", apps), ("contexts", contexts), ("preload", preload), ("shell", shell), ("user", user)]

/-- How results are written. -/
inductive OutputFormat where
  | text
  | json
deriving DecidableEq, Repr, Inhabited

/-- All formats with their names. -/
def OutputFormat.variants : List (String × OutputFormat) := [("text", text), ("json", json)]

/-- What is asked of a registry. -/
structure ReportOptions where
  list : ListKind
  /-- The context that is listed, or whose shell is shown. -/
  context : String
  /-- The selectors of the call, each of which narrows the listing. -/
  selectors : List String
  location : String
  html : Bool
  /-- Attributes that elements written as HTML get in addition. -/
  attributes : List Attribute
  format : OutputFormat
deriving Inhabited

/-- Lines of text. -/
def lines (texts : List String) : String := String.join (texts.map (· ++ "\n"))

/-- JSON with one item or member a line. -/
def jsonLines (v : Json) : String := v.pretty ++ "\n"

/-- The canonical form of a selector. -/
def checkSelector (text : String) (format : OutputFormat) : Except ProgramError String := do
  let selector ← (Selector.parse text).mapError (.selector text)
  match format with
  | .text => return lines [selector.render]
  | .json => return jsonLines (.string selector.render)

namespace Report

variable (r : Registry) (o : ReportOptions)

/-- The first selector of the call, which is empty if there is none. -/
def firstSelector : String := o.selectors.headD ""

/-- The entries that match the other selectors of the call. -/
def narrow {α : Type} [Labelled α] (entries : List α) : Logged (List α) :=
  o.selectors.tail.foldlM r.refine entries

/-- The applications that match all selectors. -/
def selectedApps : Logged (List NavigableApp) := do
  narrow r o (← r.navigableApps (firstSelector o) o.location)

/-- The elements of the context that match all selectors. -/
def selectedElements : Logged (List ContextElement) := do
  narrow r o (← r.contextElements o.context (firstSelector o))

/-- An application as a line: a mark if it is active, its title, and its path. -/
def appLine (entry : NavigableApp) : String :=
  (if entry.isActive then "*" else " ") ++ " " ++ entry.app.title ++ "\t" ++
    r.rebase entry.app.path

open Writing (silently writeLines)

/-- Writes lines of text or JSON, as the format says. -/
def writeFormatted (texts : List String) (v : Json) : Writing Unit :=
  match o.format with
  | .text => writeLines texts
  | .json => Writing.write (jsonLines v)

/-- Writes elements as HTML. -/
def writeHtml (elements : List Element) : Writing Unit :=
  let texts := elements.map (·.htmlWith o.attributes)
  writeFormatted o texts (.ofTexts texts)

/-- Writes elements as HTML if that is asked for, and otherwise lines of text or JSON. -/
def writeElements (elements : List Element) (texts : List String) (v : Json) : Writing Unit :=
  if o.html then writeHtml o elements else writeFormatted o texts v

/-- Writes applications. -/
def writeApps (entries : List NavigableApp) : Writing Unit :=
  writeElements o (entries.map (·.app.element)) (entries.map (appLine r))
    (.array (entries.map NavigableApp.toJson))

/-- Writes elements of a context. -/
def writeContexts (elements : List ContextElement) : Writing Unit :=
  writeElements o (elements.map ContextElement.element) (elements.map (·.element.tag))
    (.array (elements.map ContextElement.toJson))

/-- Writes what to load up front. -/
def writePreload : Writing Unit :=
  let plan := r.preloadPlan
  let texts := plan.styles.map ("style " ++ ·) ++ plan.modules.map ("module " ++ ·)
  writeFormatted o texts plan.toJson

/-- Writes a shell. -/
def writeShell (shell : ContextElement) : Writing Unit :=
  writeElements o [shell.element] [shell.element.tag] shell.toJson

/-- Who the user is, in lines of text. -/
def userLines : List String :=
  match r.catalog.user with
  | some user =>
    if r.isAnonymous then ["anonymous"]
    else [user.id ++ " (" ++ user.name ++ ")"] ++
      if user.roles = [] then [] else ["roles: " ++ ", ".intercalate user.roles]
  | none => ["anonymous"]

/-- Writes who the user is. -/
def writeUser : Writing Unit :=
  writeFormatted o (userLines r) (.object
    ([("anonymous", .bool r.isAnonymous)] ++ Json.optional "user" UserInfo.toJson r.catalog.user))

/-- Writes what is asked for. -/
def writeAnswer : Writing Unit := do
  match o.list with
  | .apps => writeApps r o (← silently (selectedApps r o))
  | .contexts => writeContexts o (← silently (selectedElements r o))
  | .preload => writePreload r o
  | .shell => writeShell o (← silently (r.shell o.context))
  | .user => writeUser r o

/-- Notes what is asked for, and writes it. -/
def write : Writing Unit := do
  silently (Logged.note (.listing o.list.title o.selectors))
  writeAnswer r o

/-- What is asked for, as text. -/
def run : Logged String := (write r o).written

end Report

end MicroFrontends
