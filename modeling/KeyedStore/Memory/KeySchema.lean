import KeyedStore.Memory.KeyValue

/-!
# Key schemas

The attributes that the key of a table or an index is made of, with their types.
-/
namespace KeyedStore

/-- A key attribute and its type. -/
structure KeyAttribute where
  name : String
  type : ScalarType
  deriving DecidableEq

/-- The attributes of a key. -/
structure KeySchema where
  partition : KeyAttribute
  sort : Option KeyAttribute
  deriving DecidableEq

/-- Whether a value has a scalar type. -/
def ScalarType.admits : ScalarType → AttributeValue → Bool
  | string, .string _ | number, .number _ | binary, .binary _ => true
  | _, _ => false

namespace KeyAttribute

/-- The key attribute of an element, with the type that the definitions give it. -/
def resolve (definitions : List AttributeDefinition) (element : KeyElement) :
    Except StorageError KeyAttribute :=
  match definitions.find? fun definition => definition.name == element.name with
  | some definition => .ok ⟨definition.name, definition.type⟩
  | none => .error (.undefinedKey element.name)

/-- Checks that a value has the type of a key attribute. -/
def check (key : KeyAttribute) (value : AttributeValue) : Except StorageError Unit :=
  if key.type.admits value then .ok ()
  else .error (.invalidKeyType key.name key.type.tag value.typeTag)

/-- The value of a key attribute of an item. -/
def read (key : KeyAttribute) (item : Item) : Except StorageError KeyValue :=
  match item.get? key.name with
  | none => .error (.missingKey key.name)
  | some value => do
    key.check value
    KeyValue.ofAttribute key.name value

/-- The key value that an attribute of an item has, whatever its type. -/
def value? (key : KeyAttribute) (item : Item) : Option KeyValue :=
  (item.get? key.name).bind fun value => (KeyValue.ofAttribute key.name value).toOption

end KeyAttribute

namespace KeySchema

/-- The key schema of elements, of which one must be the hash. -/
def ofElements (elements : List KeyElement) (definitions : List AttributeDefinition) :
    Except StorageError KeySchema :=
  match elements.filter fun element => element.part = .hash with
  | [hash] => do
    let sort ← match elements.find? fun element => element.part = .range with
      | some range => some <$> KeyAttribute.resolve definitions range
      | none => .ok none
    let partition ← KeyAttribute.resolve definitions hash
    .ok { partition, sort }
  | hashes => .error (.invalidKeySchema hashes.length)

def attributes (schema : KeySchema) : List KeyAttribute := schema.partition :: schema.sort.toList

/-- The names of the key attributes, the hash first. -/
def names (schema : KeySchema) : List String := schema.attributes.map (·.name)

/-- The key attributes of an item. -/
def project (schema : KeySchema) (item : Item) : Item :=
  OrderedMap.ofList <| schema.names.filterMap fun name =>
    (item.get? name).map fun value => (name, value)

/-- The key of an item. -/
def keyOf (schema : KeySchema) (item : Item) : Except StorageError PrimaryKey := do
  let partition ← schema.partition.read item
  let sort ← match schema.sort with
    | some key => some <$> key.read item
    | none => .ok none
  .ok { partition, sort }

end KeySchema

end KeyedStore
