import KeyedStore.Json.Basic
import KeyedStore.Model.Error
import KeyedStore.Table.Description

/-!
# Properties of models

A model is declared by its properties: their types, the key roles they claim and the indexes over
them. A declaration is JSON; a bare type name declares a property that is nothing else.
-/
namespace KeyedStore

/-- The name reserved for the identifier of a record. -/
def idAttribute : String := "id"

/-- The declared type of a property. -/
inductive PropertyType where
  | string
  | number
  | boolean
  | date
  /-- Anything that is stored as it is. -/
  | json
  deriving DecidableEq

namespace PropertyType

/-- The type with a name, in any letter case. Unknown names stand for `json`. -/
def ofName (name : String) : PropertyType :=
  match String.ofList (name.toList.map Char.toLower) with
  | "string" => string
  | "number" => number
  | "boolean" => boolean
  | "date" => date
  | _ => json

def name : PropertyType → String
  | string => "String"
  | number => "Number"
  | boolean => "Boolean"
  | date => "Date"
  | json => "Json"

/-- The type in which a key attribute is stored: booleans as text and dates as milliseconds. -/
def scalar? : PropertyType → Option ScalarType
  | string | boolean => some .string
  | number | date => some .number
  | json => none

end PropertyType

/-- The key role a property claims. -/
inductive KeyRole where
  | hash
  | range
  /-- The identifier made of hash and range. -/
  | primary
  deriving DecidableEq

/-- The attributes that a declared index copies. -/
inductive IndexProjection where
  | keysOnly
  | all
  | listed (attributes : List String)
  deriving DecidableEq

/-- An index declared on its range attribute. -/
structure LocalIndexDeclaration where
  name : Option String
  projection : IndexProjection
  deriving DecidableEq

/-- An index declared on its hash attribute. -/
structure GlobalIndexDeclaration where
  name : Option String
  rangeKey : Option String
  projection : IndexProjection
  throughput : Throughput
  deriving DecidableEq

/-- A declared property. -/
structure Property where
  name : String
  type : PropertyType
  role : Option KeyRole := none
  /-- Whether a missing value is generated. It has an effect on hash keys only. -/
  uuid : Bool := false
  /-- The separator of the composite identifier, for a primary key. -/
  separator : Option String := none
  localIndex : Option LocalIndexDeclaration := none
  globalIndex : Option GlobalIndexDeclaration := none
  deriving DecidableEq

def defaultReadCapacity : Int := 5

def defaultWriteCapacity : Int := 10

/-- A list names the attributes to copy; null, false and nothing copy the keys only. -/
def IndexProjection.ofJson : Option Json → IndexProjection
  | some (.arr attributes) => listed (attributes.filterMap Json.str?)
  | none | some .null | some (.bool false) => keysOnly
  | some _ => all

/-- The projection of an index as a store knows it. -/
def IndexProjection.toProjection : IndexProjection → Projection
  | keysOnly => { type := some .keysOnly }
  | all => { type := some .all }
  | listed attributes => { type := some .listed, attributes }

def LocalIndexDeclaration.ofJson (json : Json) : LocalIndexDeclaration where
  name := (json.get? "name").bind Json.str?
  projection := .ofJson (json.get? "project")

def GlobalIndexDeclaration.ofJson (json : Json) : GlobalIndexDeclaration where
  name := (json.get? "name").bind Json.str?
  rangeKey := (json.get? "rangeKey").bind Json.str?
  projection := .ofJson (json.get? "project")
  throughput :=
    let capacity (key : String) (default : Int) : Int :=
      (((json.get? "throughput").bind (·.get? key)).bind Json.int64?).getD default
    ⟨capacity "read" defaultReadCapacity, capacity "write" defaultWriteCapacity⟩

namespace Property

/-- The key role named by a declaration. -/
def roleOf (invalid : String → DefinitionError) (declaration : Record) :
    Except DefinitionError (Option KeyRole) :=
  match (declaration.get? "keyType").bind Json.str? with
  | none => .ok none
  | some "hash" => .ok (some .hash)
  | some "range" => .ok (some .range)
  | some "pk" => .ok (some .primary)
  | some other => .error (invalid s!"unknown keyType `{other}`")

/-- The indexes of a declaration: a local one, a global one, both or none. -/
def indexesOf (invalid : String → DefinitionError) (type : PropertyType) (declaration : Record) :
    Except DefinitionError (Option LocalIndexDeclaration × Option GlobalIndexDeclaration) :=
  match declaration.get? "index" with
  | none => .ok (none, none)
  | some (.obj entries) =>
    if type.scalar?.isNone && !entries.isEmpty then
      .error (invalid "indexed attributes must be string, number, boolean or date")
    else
      .ok ((Record.get? entries "local").map .ofJson, (Record.get? entries "global").map .ofJson)
  | some _ => .error (invalid "index must be an object")

/-- Reads the declaration of one property. -/
def ofJson (model name : String) (json : Json) : Except DefinitionError Property :=
  let invalid := DefinitionError.invalidProperty model name
  match json with
  | .str typeName => .ok { name, type := .ofName typeName }
  | .obj declaration => do
    let typeName := (Record.get? declaration "type").bind Json.str?
    let type := (typeName.map PropertyType.ofName).getD .json
    let role ← roleOf invalid declaration
    if (role = some .hash ∨ role = some .range) ∧ type.scalar? = none then
      .error (invalid "key attributes must be string, number, boolean or date")
    else
      let (localIndex, globalIndex) ← indexesOf invalid type declaration
      .ok {
        name, type, role, localIndex, globalIndex
        uuid := ((Record.get? declaration "uuid").bind Json.bool?).getD false
        separator := (Record.get? declaration "separator").bind Json.str? }
  | _ => .error (invalid "expected an object or a type name")

/-- Reads the declarations of all properties of a model, in their order. -/
def allOfJson (model : String) : Json → Except DefinitionError (List Property)
  | .obj declarations => declarations.mapM fun entry => ofJson model entry.1 entry.2
  | _ => .error (.invalidProperty model "*" "properties must be a JSON object")

end Property

end KeyedStore
