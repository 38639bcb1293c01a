import MicroFrontends.Catalog.Basic
import MicroFrontends.Json.Render

/-!
# The catalog as JSON

One function for each type of the catalog. Members stand in a fixed order; those that are optional
are left out if there is no value, and labels are in order of their names.
-/

namespace MicroFrontends

/-- Members of an object. -/
abbrev Members := List (String × Json)

namespace Json

/-- An array of texts. -/
def ofTexts (texts : List String) : Json := .array (texts.map .string)

/-- A member that is there only if it has a value. -/
def optional {α : Type} (name : String) (encode : α → Json) : Option α → Members
  | some v => [(name, encode v)]
  | none => []

/-- An object of texts. -/
def ofDict (entries : Dict String) : Json := .object (entries.map fun e => (e.1, .string e.2))

end Json

open Json

def Module.members (m : Module) : Members :=
  [("load_url", .string m.loadUrl)] ++ optional "styles" ofTexts m.styles

def Module.toJson (m : Module) : Json := .object m.members

def Attribute.toJson (a : Attribute) : Json :=
  .object [("name", .string a.name), ("value", a.value)]

def Element.members (e : Element) : Members :=
  e.code.members ++ [("element", .string e.tag),
    ("attributes", .array (e.attributes.map Attribute.toJson))] ++
    optional "labels" ofDict e.labels ++ optional "roles" ofTexts e.roles

def Element.toJson (e : Element) : Json := .object e.members

def App.members (a : App) : Members :=
  a.element.members ++ [("title", .string a.title), ("details", .string a.details),
    ("path", .string a.path), ("priority", .float a.priority)] ++ optional "icon" .string a.icon

def App.toJson (a : App) : Json := .object a.members

def ContextElement.members (e : ContextElement) : Members :=
  e.element.members ++ [("contextNames", ofTexts e.contextNames)]

def ContextElement.toJson (e : ContextElement) : Json := .object e.members

def UserInfo.toJson (u : UserInfo) : Json :=
  .object [("id", .string u.id), ("name", .string u.name), ("roles", ofTexts u.roles)]

def Catalog.toJson (c : Catalog) : Json :=
  .object ([("preload", .array (c.preload.map Module.toJson)),
    ("apps", .array (c.apps.map App.toJson)),
    ("contexts", .array (c.contexts.map ContextElement.toJson))] ++
    optional "anonymous" .bool c.anonymous ++ optional "user" UserInfo.toJson c.user)

end MicroFrontends
