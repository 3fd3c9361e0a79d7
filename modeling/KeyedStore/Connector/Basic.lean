import KeyedStore.Connector.Paging
import KeyedStore.Connector.Service
import KeyedStore.Filter.Shaping
import KeyedStore.Key.Identifier
import KeyedStore.Model.Registry
import KeyedStore.Plan.Compile

/-!
# Connectors

A connector reads and writes the records of models in a store. Records are known by identifiers; a
filter selects several of them.
-/
namespace KeyedStore

/-- Reads and writes records through a service. -/
structure Connector (σ : Type) where
  service : Service σ
  /-- Whether the table of a model is provisioned when the model is defined. -/
  autoProvision : Bool := false
  /-- Loads the related records that a filter asks for. -/
  loadRelations : Option (Schema → List Record → Json → Operation σ (List Record)) := none

/-- The request that sets attributes of the record with a key, if there is one to set. Null and the
key attributes are not set; the identifier of a composite key is set to what the key says. -/
def Schema.updateRequest? (schema : Schema) (key changes : Record) : Option UpdateItem :=
  let changes := schema.coerceDates changes
  let changes := match schema.compositeKey, schema.rangeKey with
    | some compositeKey, some rangeKey =>
      let value (name : String) : Json := (key.get? name).getD .null
      changes.set compositeKey (.str (schema.encodeId (value schema.hashKey) (value rangeKey)))
    | _, _ => changes
  let assigned := changes.filter fun (name, value) => !value.isNull && !schema.isKey name
  let (assignments, placeholders) := assign {} assigned
  if assignments.isEmpty then none
  else some {
    table := schema.tableName
    key := Record.toItem key
    update := some (Update.print { assignments, removals := [] })
    names := placeholders.names
    values := OrderedMap.mapValues Json.toAttribute placeholders.values
    returnValues := some .allNew }
where
  /-- The assignments of values to attributes, with the placeholders for both. -/
  assign (placeholders : Placeholders) : Record → List Assignment × Placeholders
    | [] => ([], placeholders)
    | (name, value) :: rest =>
      let (path, placeholders) := placeholders.name name
      let (operand, placeholders) := placeholders.value name "" value
      let (assignments, placeholders) := assign placeholders rest
      (⟨path, .value operand⟩ :: assignments, placeholders)

namespace Connector

variable {σ : Type}

/-- Asks the store and fails as it does. -/
def ask (connector : Connector σ) (request : Request) : Operation σ request.Answer :=
  connector.service.ask request

/-- The names of all tables. -/
def listTables (connector : Connector σ) : Operation σ (List String) :=
  connector.service.run NameListing.next .start

/-- Waits until a table is active, looking at it at intervals. -/
def waitUntilActive (connector : Connector σ) (table : String) (interval : Nat) :
    Operation σ Unit :=
  connector.service.run (Activation.next table interval) .looking

/-- Provisions the table of a model. -/
def provision (connector : Connector σ) (schema : Schema) : Operation σ ProvisionOutcome :=
  connector.service.run (Provisioning.next schema) .start

/-- Reads the items of a plan, or some of them if a number is enough. -/
def fetch (connector : Connector σ) (plan : Plan) (table : String) (enough : Option Nat) :
    Operation σ (List Item) :=
  connector.service.run (Paging.next plan table enough) .start

/-- Registers a model, and provisions its table in the background if the connector does so. -/
def define (connector : Connector σ) (registry : Registry) (definition : ModelDefinition) :
    Operation σ (Schema × Registry) := do
  let (schema, registry) ← .ofExcept ((registry.define definition).mapError .definition)
  if connector.autoProvision then ExceptT.lift (connector.service.spawn schema)
  return (schema, registry)

/-- Makes sure that the table of a model exists. Waits for the provisioning in the background if
there is one, and provisions now otherwise. -/
def ensureTable (connector : Connector σ) (schema : Schema) : Operation σ ProvisionOutcome := do
  match ← ExceptT.lift (connector.service.join schema.name) with
  | some (.ok outcome) => return outcome
  | some (.error interruption) => throw interruption
  | none => connector.provision schema

/-- The key of the record with an identifier. -/
def keyForId (schema : Schema) (id : Json) : Operation σ Record :=
  .ofExcept ((schema.keyForId id).mapError .validation)

/-- The plan of a filter. -/
def plan (schema : Schema) (filter : Filter) : Operation σ Plan :=
  .ofExcept ((schema.plan filter).mapError .input)

/-- Writes a record in its table. Answers its identifier and the record as it is written. -/
def write (connector : Connector σ) (schema : Schema) (fresh : Option String) (data : Record) :
    Operation σ (Json × Record) := do
  let (id, record) := schema.prepareWrite fresh data
  let id ← .ofExcept (id.mapError .validation)
  let _ ← connector.ask (.putItem { table := schema.tableName, item := Record.toItem record })
  return (id, record)

/-- Writes a record and answers its identifier. A fresh text is at hand for a model that generates
its hash keys. -/
def create (connector : Connector σ) (schema : Schema) (fresh : String) (data : Record) :
    Operation σ Json :=
  (·.1) <$> connector.write schema (some fresh) data

/-- Writes a record, which must have all of its key, and answers it as it is written. -/
def save (connector : Connector σ) (schema : Schema) (data : Record) : Operation σ Record :=
  (·.2) <$> connector.write schema none data

/-- The record with an identifier. -/
def find (connector : Connector σ) (schema : Schema) (id : Json) : Operation σ (Option Record) := do
  let key ← keyForId schema id
  let answer : ItemAnswer ← connector.ask
    (.getItem { table := schema.tableName, key := Record.toItem key })
  return answer.item.map Item.toRecord

/-- Whether there is a record with an identifier. -/
def exists? (connector : Connector σ) (schema : Schema) (id : Json) : Operation σ Bool :=
  Option.isSome <$> connector.find schema id

/-- Sets attributes of the record with an identifier, and answers the record. -/
def update (connector : Connector σ) (schema : Schema) (id : Json) (changes : Record) :
    Operation σ Record := do
  let key ← keyForId schema id
  match schema.updateRequest? key changes with
  | none => return (← connector.find schema id).getD key
  | some request => do
    let answer : ItemAnswer ← connector.ask (.updateItem request)
    return (answer.item.map Item.toRecord).getD key

/-- Removes the record with an identifier, and answers it. -/
def destroy (connector : Connector σ) (schema : Schema) (id : Json) :
    Operation σ (Option Record) := do
  let key ← keyForId schema id
  let answer : ItemAnswer ← connector.ask (.deleteItem {
    table := schema.tableName
    key := Record.toItem key
    returnValues := some .allOld })
  return answer.item.map Item.toRecord

/-- Removes the record that an item holds. -/
def destroyItem (connector : Connector σ) (schema : Schema) (item : Item) : Operation σ Unit := do
  let key ← .ofExcept ((schema.keyOfRecord (Item.toRecord item)).mapError .validation)
  let _ ← connector.ask (.deleteItem { table := schema.tableName, key := Record.toItem key })

/-- Removes all records that meet the conditions of a filter, and answers their number. -/
def destroyAll (connector : Connector σ) (schema : Schema) (filter : Filter) :
    Operation σ Nat := do
  let plan ← plan schema filter.whereOnly
  let items ← connector.fetch plan schema.tableName none
  items.forM (connector.destroyItem schema)
  return items.length

/-- The wanted window of the records that meet the conditions of a filter, sorted. -/
def all (connector : Connector σ) (schema : Schema) (filter : Filter) :
    Operation σ (List Record) := do
  let plan ← plan schema filter
  let items ← connector.fetch plan schema.tableName filter.minResults
  let records := filter.shape schema (items.map Item.toRecord)
  match filter.relations, connector.loadRelations with
  | some relations, some load => load schema records relations
  | _, _ => return records

/-- The number of records that meet the conditions of a filter. -/
def count (connector : Connector σ) (schema : Schema) (filter : Filter) : Operation σ Nat :=
  List.length <$> connector.all schema filter.whereOnly

end Connector

end KeyedStore
