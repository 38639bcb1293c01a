import MicroFrontends.Catalog.Basic
import MicroFrontends.Json.Record

/-!
# The catalog from JSON

One decoder for each type of the catalog, and `Catalog.ofDocument` for a whole document. Modules,
attributes, users and the catalog itself are plain records. An element is an open record, as its
module's members stand in the same object, and so are applications and context elements, which
share the object with their element.
-/

namespace MicroFrontends

open Json

/-! ## Modules -/

/-- What is known of a module while it is read. -/
structure Module.Draft where
  loadUrl : Option String := none
  styles : Option (Option (List String)) := none

namespace Module

def record : Record Draft Module where
  name := "Module"
  start := {}
  slots := [
    .of "load_url" Draft.loadUrl (fun d v => { d with loadUrl := some v }) .text true,
    .of "styles" Draft.styles (fun d v => { d with styles := some v })
      (.option (.list .text)) true]
  isOpen := false
  finish d _ := .ok ⟨d.loadUrl.getD "", d.styles.getD none⟩

def decoder : Decoder Module := record.decoder

end Module

/-! ## Attributes -/

/-- What is known of an attribute while it is read. -/
structure Attribute.Draft where
  name : Option String := none
  value : Option Json := none

namespace Attribute

def record : Record Draft Attribute where
  name := "Attribute"
  start := {}
  slots := [
    .of "name" Draft.name (fun d v => { d with name := some v }) .text false,
    .of "value" Draft.value (fun d v => { d with value := some v }) .json false]
  isOpen := false
  finish d _ := do return ⟨← require "name" d.name, ← require "value" d.value⟩

def decoder : Decoder Attribute := record.decoder

end Attribute

/-! ## Elements -/

/-- What is known of an element, its module aside, while it is read. -/
structure Element.Draft where
  tag : Option String := none
  attributes : Option (List Attribute) := none
  labels : Option (Option (Dict String)) := none
  roles : Option (Option (List String)) := none

namespace Element

def record : Record Draft Element where
  name := "Element"
  start := {}
  slots := [
    .of "element" Draft.tag (fun d v => { d with tag := some v }) .text false,
    .of "attributes" Draft.attributes (fun d v => { d with attributes := some v })
      (.list Attribute.decoder) true,
    .of "labels" Draft.labels (fun d v => { d with labels := some v })
      (.option (.dict .text)) true,
    .of "roles" Draft.roles (fun d v => { d with roles := some v })
      (.option (.list .text)) true]
  isOpen := true
  finish d others := do
    let tag ← require "element" d.tag
    let code ← Module.record.ofMembers others
    return ⟨code, tag, d.attributes.getD [], d.labels.getD none, d.roles.getD none⟩

def decoder : Decoder Element := record.decoder

end Element

/-! ## Applications -/

/-- What is known of an application, its element aside, while it is read. -/
structure App.Draft where
  title : Option String := none
  details : Option String := none
  path : Option String := none
  priority : Option Binary64 := none
  icon : Option (Option String) := none

namespace App

def record : Record Draft App where
  name := "WebApp"
  start := {}
  slots := [
    .of "title" Draft.title (fun d v => { d with title := some v }) .text false,
    .of "details" Draft.details (fun d v => { d with details := some v }) .text true,
    .of "path" Draft.path (fun d v => { d with path := some v }) .text false,
    .of "priority" Draft.priority (fun d v => { d with priority := some v }) .number true,
    .of "icon" Draft.icon (fun d v => { d with icon := some v }) (.option .text) true]
  isOpen := true
  finish d others := do
    let title ← require "title" d.title
    let path ← require "path" d.path
    let element ← Element.record.ofMembers others
    return ⟨element, title, d.details.getD "", path, d.priority.getD (.zero false),
      d.icon.getD none⟩

def decoder : Decoder App := record.decoder

end App

/-! ## Context elements -/

/-- What is known of a context element, its element aside, while it is read. -/
structure ContextElement.Draft where
  contextNames : Option (List String) := none

namespace ContextElement

def record : Record Draft ContextElement where
  name := "ContextElement"
  start := {}
  slots := [
    .of "contextNames" Draft.contextNames (fun _ v => ⟨some v⟩) (.list .text) true]
  isOpen := true
  finish d others := do
    let element ← Element.record.ofMembers others
    return ⟨element, d.contextNames.getD []⟩

def decoder : Decoder ContextElement := record.decoder

end ContextElement

/-! ## Users -/

/-- What is known of a user while it is read. -/
structure UserInfo.Draft where
  id : Option String := none
  name : Option String := none
  roles : Option (List String) := none

namespace UserInfo

def record : Record Draft UserInfo where
  name := "UserInfo"
  start := {}
  slots := [
    .of "id" Draft.id (fun d v => { d with id := some v }) .text false,
    .of "name" Draft.name (fun d v => { d with name := some v }) .text true,
    .of "roles" Draft.roles (fun d v => { d with roles := some v }) (.list .text) true]
  isOpen := false
  finish d _ := do return ⟨← require "id" d.id, d.name.getD "", d.roles.getD []⟩

def decoder : Decoder UserInfo := record.decoder

end UserInfo

/-! ## The catalog -/

/-- What is known of a catalog while it is read. -/
structure Catalog.Draft where
  preload : Option (List Module) := none
  apps : Option (List App) := none
  contexts : Option (List ContextElement) := none
  anonymous : Option (Option Bool) := none
  user : Option (Option UserInfo) := none

namespace Catalog

def record : Record Draft Catalog where
  name := "Catalog"
  start := {}
  slots := [
    .of "preload" Draft.preload (fun d v => { d with preload := some v })
      (.list Module.decoder) true,
    .of "apps" Draft.apps (fun d v => { d with apps := some v }) (.list App.decoder) true,
    .of "contexts" Draft.contexts (fun d v => { d with contexts := some v })
      (.list ContextElement.decoder) true,
    .of "anonymous" Draft.anonymous (fun d v => { d with anonymous := some v })
      (.option .boolean) true,
    .of "user" Draft.user (fun d v => { d with user := some v })
      (.option UserInfo.decoder) true]
  isOpen := false
  finish d _ := .ok ⟨d.preload.getD [], d.apps.getD [], d.contexts.getD [], d.anonymous.getD none,
    d.user.getD none⟩

def decoder : Decoder Catalog := record.decoder

/-- The catalog that a document describes. -/
def ofDocument (d : Document) : Except JsonError Catalog := decoder.parse d

end Catalog

end MicroFrontends
