import MicroFrontends.Dict
import MicroFrontends.Settings.Basic
import MicroFrontends.Settings.Error
import MicroFrontends.Settings.KeyPath

/-!
# Layers of settings

Settings come in layers, of which a later one goes before an earlier one.

* `Layer` : what one source sets;
* `Merged` : what all layers together set, by key;
* `Settings.ofMerged` : the settings that result.

Only what results has to fit its key: a value of a wrong type may lie below a good one.
-/

namespace MicroFrontends

/-- What one source sets, and the file that the source is. -/
structure Layer where
  origin : Option String
  entries : List (String × Json)
deriving Inhabited

/-- A value with the file that it is from. -/
structure Placed where
  value : Json
  origin : Option String
deriving Inhabited

/-- What all layers together set. -/
abbrev Merged := Dict Placed

/-! ## Merging -/

/-- The value is a table. -/
def isTable : Json → Bool
  | .object _ => true
  | _ => false

namespace Placed

/-- The file that a list is from, if there is a list. -/
def listOrigin? : Option Placed → Option String
  | some ⟨.array _, origin⟩ => origin
  | _ => none

/-- What results where a value from a file lies over what there is at the end of a path. Tables are
from no file, as they may be from several, and a list stays from the file that it started in. -/
def putAt (origin : Option String) (v : Json) (steps : List KeyStep) (below : Option Placed) :
    Placed :=
  let result := KeyPath.putAt v steps (below.map value)
  if isTable result then ⟨result, none⟩
  else if steps = [] then ⟨result, origin⟩
  else ⟨result, listOrigin? below⟩

end Placed

namespace Merged

/-- Puts an entry over what there is. -/
def put (origin : Option String) (merged : Merged) (entry : String × Json) : Merged :=
  let path := KeyPath.ofText entry.1
  merged.insert path.root (.putAt origin entry.2 path.steps (merged.get? path.root))

/-- Puts a layer over what there is. -/
def add (merged : Merged) (layer : Layer) : Merged := layer.entries.foldl (put layer.origin) merged

/-- What all layers together set. -/
def ofLayers (layers : List Layer) : Merged := layers.foldl add []

end Merged

/-! ## Reading what results -/

/-- The text of a value that is neither null nor made of others. -/
def scalarText? : Json → Option String
  | .string s => some s
  | .bool b => some (if b then "true" else "false")
  | .int n => some (toString n)
  | .float x => some x.renderPlain
  | _ => none

/-- What messages call a value that has no text. -/
def kindName : Json → String
  | .array _ => "sequence"
  | .object _ => "map"
  | _ => "unit value"

namespace Placed

/-- The value as a text. -/
def readText (key : String) (p : Placed) : Except SettingsError String :=
  match scalarText? p.value with
  | some s => .ok s
  | none => .error (.wrongType (kindName p.value) key p.origin)

/-- The value as a selector, where null is the empty one. -/
def readSelector (key : String) (p : Placed) : Except SettingsError Selector :=
  match p.value with
  | .null => .ok .all
  | _ => do (Selector.parse (← p.readText key)).mapError (.invalidSelector · key)

/-- The policy of a name. -/
def policyOf (key name : String) : Except SettingsError InvalidSelectorPolicy :=
  match InvalidSelectorPolicy.ofName? name with
  | some policy => .ok policy
  | none => .error (.unknownPolicy name key)

/-- The value as a policy: its name, or a table whose only key is its name. -/
def readPolicy (key : String) (p : Placed) : Except SettingsError InvalidSelectorPolicy :=
  match p.value with
  | .string name => policyOf key name
  | .object [(name, _)] => policyOf key name
  | _ => .error (.unnamedPolicy key)

end Placed

/-- Reads what is set for a key. -/
def Merged.read {α : Type} (merged : Merged) (key : String) (standard : α)
    (reader : String → Placed → Except SettingsError α) : Except SettingsError α :=
  match merged.get? key with
  | some p => reader key p
  | none => .ok standard

namespace Settings

/-- The settings that result. What is not set has its standard value. -/
def ofMerged (merged : Merged) : Except SettingsError Settings := do
  return ⟨← merged.read basePathKey standard.basePath Placed.readText,
    ← merged.read pageSelectorKey standard.pageSelector Placed.readSelector,
    ← merged.read shellContextKey standard.shellContext Placed.readText,
    ← merged.read invalidSelectorKey standard.invalidSelector Placed.readPolicy⟩

/-- The settings that layers result in. -/
def ofLayers (layers : List Layer) : Except SettingsError Settings := ofMerged (.ofLayers layers)

end Settings

end MicroFrontends
