import KeyedStore.Model.Definition
import KeyedStore.OrderedMap
import KeyedStore.Store.Request

/-!
# Schemas

A schema is a definition resolved: the hash and range keys of the table, the attribute that holds
the identifier of a record, the types of all attributes and the secondary indexes.
`Schema.createTable` is the request for the table that a schema needs.
-/
namespace KeyedStore

/-- Whether an index shares the hash key of its table. -/
inductive IndexKind where
  | localIndex
  | globalIndex
  deriving DecidableEq

/-- The key of a secondary index. -/
structure Index where
  name : String
  kind : IndexKind
  hashKey : String
  rangeKey : Option String
  projection : IndexProjection
  /-- Set for global indexes. -/
  throughput : Option Throughput
  deriving DecidableEq

/-- The resolved keys and indexes of a model. -/
structure Schema where
  name : String
  tableName : String
  hashKey : String
  rangeKey : Option String
  /-- The attribute that holds hash and range in one text, present if the range key is. -/
  compositeKey : Option String
  separator : String
  /-- Whether a missing hash key is generated. -/
  generatesHash : Bool
  types : OrderedMap String PropertyType
  /-- Local indexes by their range attribute. -/
  localIndexes : OrderedMap String Index
  /-- Global indexes by their hash attribute. -/
  globalIndexes : OrderedMap String Index
  settings : ModelSettings
  deriving DecidableEq

namespace Schema

/-- The declared type of an attribute. -/
def type? (schema : Schema) (name : String) : Option PropertyType := schema.types.get? name

/-- Whether identifiers are made of a hash and a range. -/
def isComposite (schema : Schema) : Bool := schema.rangeKey.isSome && schema.compositeKey.isSome

/-- The attribute that holds the identifier. -/
def idKey (schema : Schema) : String := schema.compositeKey.getD schema.hashKey

/-- The attribute to sort by where no order is asked for. -/
def defaultSortKey (schema : Schema) : String :=
  if schema.rangeKey.isSome then schema.compositeKey.getD idAttribute else schema.hashKey

/-- Whether an attribute is the hash or the range key of the table. -/
def isKey (schema : Schema) (name : String) : Bool :=
  name == schema.hashKey || schema.rangeKey == some name

/-- The type of an attribute that refers to a record of this model. -/
def foreignKeyType (schema : Schema) : PropertyType :=
  if schema.isComposite then .string else (schema.type? schema.hashKey).getD .string

/-- The type in which a key attribute is stored. -/
def scalarType (schema : Schema) (name : String) : ScalarType :=
  ((schema.type? name).bind PropertyType.scalar?).getD .string

end Schema

/-- The key of a table or an index: a hash attribute, and a range attribute where there is one. -/
def keyElements (hash : String) (range : Option String) : List KeyElement :=
  ⟨hash, .hash⟩ :: range.toList.map (⟨·, .range⟩)

namespace Index

def keyAttributes (index : Index) : List String := index.hashKey :: index.rangeKey.toList

def toLocal (index : Index) : LocalIndex where
  name := index.name
  keyElements := keyElements index.hashKey index.rangeKey
  projection := index.projection.toProjection

def toGlobal (index : Index) : GlobalIndex where
  name := index.name
  keyElements := keyElements index.hashKey index.rangeKey
  projection := index.projection.toProjection
  throughput := index.throughput

end Index

namespace Schema

/-- The attributes that need a definition: the keys of the table and of all indexes. -/
def keyAttributes (schema : Schema) : List String :=
  schema.hashKey :: schema.rangeKey.toList ++
    schema.localIndexes.values.flatMap Index.keyAttributes ++
    schema.globalIndexes.values.flatMap Index.keyAttributes

/-- The request for the table of a schema. Each key attribute is defined once. -/
def createTable (schema : Schema) : CreateTable where
  table := schema.tableName
  keyElements := keyElements schema.hashKey schema.rangeKey
  definitions := schema.keyAttributes.eraseDups.map fun name => ⟨name, schema.scalarType name⟩
  billing := some .provisioned
  throughput := some ⟨schema.settings.readCapacity, schema.settings.writeCapacity⟩
  globalIndexes := schema.globalIndexes.values.map Index.toGlobal
  localIndexes := schema.localIndexes.values.map Index.toLocal

end Schema

end KeyedStore
