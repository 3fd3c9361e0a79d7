import KeyedStore.Model.Schema

/-!
# Registry of models

Resolves definitions into schemas and keeps them by name. `Registry.define` registers a model whose
definition is sound and whose name is free, and leaves the registry as it is otherwise.
-/
namespace KeyedStore

/-- The separator between hash and range unless a model sets another. -/
def defaultSeparator : String := "--x--"

/-- The properties that claim the roles of a key. -/
structure KeyClaims where
  hash : Option String := none
  range : Option String := none
  primary : Option String := none
  separator : Option String := none
  uuid : Bool := false

namespace KeyClaims

/-- Fills a role that must not be taken. -/
def claim (model role : String) (taken : Option String) (property : String) :
    Except DefinitionError (Option String) :=
  match taken with
  | some first => .error (.duplicateKey model role first property)
  | none => .ok (some property)

/-- Adds the claim of a property. -/
def add (model : String) (claims : KeyClaims) (property : Property) :
    Except DefinitionError KeyClaims :=
  match property.role with
  | none => .ok claims
  | some .hash =>
    if property.uuid && property.name != idAttribute then
      .error (.uuidKeyName model property.name)
    else do
      let hash ← claim model "hash" claims.hash property.name
      .ok { claims with hash, uuid := property.uuid }
  | some .range => do
    let range ← claim model "range" claims.range property.name
    .ok { claims with range }
  | some .primary =>
    if property.name != idAttribute then .error (.primaryKeyName model property.name)
    else do
      let primary ← claim model "pk" claims.primary property.name
      .ok { claims with primary, separator := property.separator }

/-- A range key needs a hash key and a composite key; a composite key needs a range key. -/
def check (model : String) (claims : KeyClaims) : Except DefinitionError KeyClaims :=
  match claims.hash, claims.range, claims.primary with
  | none, some range, _ => .error (.rangeWithoutHash model range)
  | some _, some range, none => .error (.rangeWithoutPrimary model range)
  | _, none, some primary => .error (.primaryWithoutRange model primary)
  | _, _, _ => .ok claims

/-- The key roles claimed by the properties of a model. -/
def ofProperties (model : String) (properties : List Property) :
    Except DefinitionError KeyClaims := do
  check model (← properties.foldlM (add model) {})

end KeyClaims

/-- The indexes of a model, and the names they have taken. -/
structure IndexTable where
  names : List String := []
  localIndexes : OrderedMap String Index := []
  globalIndexes : OrderedMap String Index := []

namespace IndexTable

/-- Takes a name for an index. -/
def take (model name : String) (table : IndexTable) : Except DefinitionError IndexTable :=
  if table.names.contains name then .error (.duplicateIndexName model name)
  else .ok { table with names := table.names ++ [name] }

/-- Adds the local index of a property. -/
def addLocal (model hashKey : String) (table : IndexTable) (property : Property) :
    Except DefinitionError IndexTable :=
  match property.localIndex with
  | none => .ok table
  | some declared => do
    let name := declared.name.getD (property.name ++ "LocalIndex")
    let table ← table.take model name
    let index : Index := {
      name, kind := .localIndex, hashKey, rangeKey := some property.name
      projection := declared.projection, throughput := none }
    .ok { table with localIndexes := table.localIndexes.insert property.name index }

/-- Adds the global index of a property. Its range key must be a declared scalar. -/
def addGlobal (model : String) (types : OrderedMap String PropertyType) (table : IndexTable)
    (property : Property) : Except DefinitionError IndexTable :=
  match property.globalIndex with
  | none => .ok table
  | some declared => do
    match declared.rangeKey with
    | some range =>
      if ((types.get? range).bind PropertyType.scalar?).isNone then
        throw (.invalidProperty model property.name
          s!"global index range key `{range}` is not a declared scalar property")
    | none => pure ()
    let name := declared.name.getD (property.name ++ "GlobalIndex")
    let table ← table.take model name
    let index : Index := {
      name, kind := .globalIndex, hashKey := property.name, rangeKey := declared.rangeKey
      projection := declared.projection, throughput := some declared.throughput }
    .ok { table with globalIndexes := table.globalIndexes.insert property.name index }

/-- The indexes declared by the properties of a model. -/
def ofProperties (model hashKey : String) (types : OrderedMap String PropertyType)
    (properties : List Property) : Except DefinitionError IndexTable :=
  properties.foldlM (fun table property => do
    addGlobal model types (← addLocal model hashKey table property) property) {}

end IndexTable

/-- The hash key of a model, whether it is generated, and the types with those of the hash key.
Where no property claims the role, the identifier is the hash key, declared or not. -/
def resolveHash (claims : KeyClaims) (properties : List Property) :
    String × Bool × OrderedMap String PropertyType :=
  let types := OrderedMap.ofList (properties.map fun property => (property.name, property.type))
  match claims.hash with
  | some hash => (hash, claims.uuid, types)
  | none =>
    if types.contains idAttribute then
      (idAttribute, properties.any (fun p => p.name == idAttribute && p.uuid), types)
    else (idAttribute, true, types.insert idAttribute .string)

/-- Resolves a definition. -/
def ModelDefinition.resolve (definition : ModelDefinition) : Except DefinitionError Schema := do
  let claims ← KeyClaims.ofProperties definition.name definition.properties
  let (hashKey, generatesHash, types) := resolveHash claims definition.properties
  let indexes ← IndexTable.ofProperties definition.name hashKey types definition.properties
  .ok {
    name := definition.name
    tableName := definition.settings.table.getD definition.name
    hashKey
    rangeKey := claims.range
    compositeKey := claims.primary
    separator := claims.separator.getD defaultSeparator
    generatesHash
    types
    localIndexes := indexes.localIndexes
    globalIndexes := indexes.globalIndexes
    settings := definition.settings }

/-- The schemas of all defined models, by model name. -/
abbrev Registry := OrderedMap String Schema

namespace Registry

/-- Resolves and registers a model. The schema is put in last, after all that may fail, so an error
comes without a registry. -/
def define (registry : Registry) (definition : ModelDefinition) :
    Except DefinitionError (Schema × Registry) :=
  if registry.contains definition.name then .error (.alreadyDefined definition.name)
  else do
    let schema ← definition.resolve
    .ok (schema, OrderedMap.insert registry schema.name schema)

/-- The type of an attribute that refers to a record of a model. -/
def foreignKeyType? (registry : Registry) (model : String) : Option PropertyType :=
  (registry.get? model).map Schema.foreignKeyType

end Registry

end KeyedStore
