import MicroFrontends.Json.Value
import MicroFrontends.Selector.Expr

/-!
# The catalog of micro-frontends

A `Catalog` holds all that a registry knows about: modules to load up front, the applications that
can be navigated to (`App`), the elements that go into named places of a page (`ContextElement`),
and who the user is. Applications and context elements are both `Element`s, web components whose
code comes from a `Module`, and carry labels.
-/

namespace MicroFrontends

/-- A script to load, with the stylesheets that it needs. -/
structure Module where
  loadUrl : String
  styles : Option (List String)
deriving Inhabited, DecidableEq

/-- An attribute that an element gets when it is rendered. -/
structure Attribute where
  name : String
  value : Json
deriving Inhabited

/-- A web component that can be placed into a page. -/
structure Element where
  code : Module
  tag : String
  attributes : List Attribute
  labels : Option (Dict String)
  /-- The roles of the users who shall see the element. -/
  roles : Option (List String)
deriving Inhabited

/-- An application that can be navigated to. -/
structure App where
  element : Element
  title : String
  details : String
  /-- Where the application is served, relative to the base path. -/
  path : String
  /-- Applications of a higher priority are listed first. -/
  priority : Binary64
  icon : Option String
deriving Inhabited

/-- An element for named places of a page, its contexts. -/
structure ContextElement where
  element : Element
  contextNames : List String
deriving Inhabited

/-- Who is signed in. -/
structure UserInfo where
  id : String
  name : String
  roles : List String
deriving Inhabited, DecidableEq

/-- All that a registry knows about. -/
structure Catalog where
  /-- The modules that are loaded up front, whatever application is shown. -/
  preload : List Module
  apps : List App
  contexts : List ContextElement
  anonymous : Option Bool
  user : Option UserInfo
deriving Inhabited

instance : Labelled Element where
  label? e := Labelled.label? e.labels

instance : Labelled App where
  label? app := Labelled.label? app.element

instance : Labelled ContextElement where
  label? e := Labelled.label? e.element

/-- Things whose code has to be loaded from a module. -/
class HasModule (α : Type) where
  moduleOf : α → Module

instance : HasModule Module where
  moduleOf m := m

instance : HasModule Element where
  moduleOf e := e.code

instance : HasModule App where
  moduleOf app := app.element.code

instance : HasModule ContextElement where
  moduleOf e := e.element.code

namespace ContextElement

/-- The shell that is used when the catalog has none for the shell's context. -/
def defaultShell : ContextElement where
  element := ⟨⟨"", none⟩, "ufe-default-shell", [], none, some ["*"]⟩
  contextNames := []

/-- The element belongs to the context. -/
def isIn (e : ContextElement) (context : String) : Bool := e.contextNames.contains context

end ContextElement

namespace Catalog

/-- The catalog that holds nothing. -/
def empty : Catalog := ⟨[], [], [], none, none⟩

/-- The catalog holds nothing. -/
def isEmpty (c : Catalog) : Bool :=
  c.preload.isEmpty && c.apps.isEmpty && c.contexts.isEmpty && c.anonymous.isNone &&
    c.user.isNone

end Catalog

end MicroFrontends
