import KeyedStore.Model.Property
import KeyedStore.Wire.Decoder

/-!
# Model definitions

A definition is the name of a model, its properties and its settings: the capacity of its table, the
name of the table and how the table is awaited after its creation.
-/
namespace KeyedStore

open Decoder Fields

/-- How the creation of a table is awaited. -/
structure ActivationSettings where
  waitUntilActive : Bool := true
  /-- Milliseconds between two looks at the table. -/
  interval : Nat := 5000
  deriving DecidableEq

/-- The settings of a model. -/
structure ModelSettings where
  readCapacity : Int := defaultReadCapacity
  writeCapacity : Int := defaultWriteCapacity
  activation : ActivationSettings := {}
  /-- The name of the table, where it is not that of the model. -/
  table : Option String := none
  deriving DecidableEq

def ActivationSettings.ofJson : Decoder ActivationSettings :=
  let standard : ActivationSettings := {}
  (ActivationSettings.mk
    <$> withDefault "waitTillActive" bool standard.waitUntilActive
    <*> withDefault "timeInterval" (natBelow (Nat.pow 2 64)) standard.interval).decode

def ActivationSettings.toJson (settings : ActivationSettings) : Json :=
  .obj [("waitTillActive", .bool settings.waitUntilActive),
    ("timeInterval", .ofInt settings.interval)]

def ModelSettings.ofJson : Decoder ModelSettings :=
  let standard : ModelSettings := {}
  (ModelSettings.mk
    <$> withDefault "ReadCapacityUnits" int64 standard.readCapacity
    <*> withDefault "WriteCapacityUnits" int64 standard.writeCapacity
    <*> withDefault "tableStatus" ActivationSettings.ofJson standard.activation
    <*> withDefault "table" (nullable string) standard.table).decode

def ModelSettings.toJson (settings : ModelSettings) : Json :=
  .obj [("ReadCapacityUnits", .ofInt settings.readCapacity),
    ("WriteCapacityUnits", .ofInt settings.writeCapacity),
    ("tableStatus", settings.activation.toJson),
    ("table", .ofOption .str settings.table)]

/-- All that is needed to define a model. -/
structure ModelDefinition where
  name : String
  properties : List Property
  settings : ModelSettings := {}
  deriving DecidableEq

/-- The settings that a model declares; null stands for the standard ones. -/
def ModelDefinition.settingsOfJson (model : String) (json : Json) :
    Except DefinitionError ModelSettings :=
  if json.isNull then .ok {}
  else
    match ModelSettings.ofJson json with
    | .ok settings => .ok settings
    | .error _ => .error (.invalidProperty model "settings" "settings do not decode")

/-- Reads the declared properties and settings of a model. -/
def ModelDefinition.ofJson (name : String) (properties settings : Json) :
    Except DefinitionError ModelDefinition := do
  let properties ← Property.allOfJson name properties
  let settings ← settingsOfJson name settings
  .ok { name, properties, settings }

end KeyedStore
