import KeyedStore.Memory.TableStorage
import KeyedStore.Store.Error
import KeyedStore.Store.Request

/-!
# Tables in memory

A table with its description and its items. A new table is being created until it has been looked at
a number of times, and active from then on.
-/
namespace KeyedStore

/-- A table in memory. -/
structure MemoryTable where
  name : String
  /-- The number of looks that still find the table being created. -/
  pendingPolls : Nat
  keyElements : List KeyElement
  definitions : List AttributeDefinition
  throughput : Option Throughput
  globalIndexes : List GlobalIndex
  localIndexes : List LocalIndex
  storage : TableStorage

namespace MemoryTable

/-- The table that a request asks for. Each key attribute of the table and its indexes must be
defined. -/
def ofRequest (request : CreateTable) (activationPolls : Nat) :
    Except StorageError MemoryTable := do
  let keySchema ← KeySchema.ofElements request.keyElements request.definitions
  let indexKeys :=
    request.globalIndexes.map (·.keyElements) ++ request.localIndexes.map (·.keyElements)
  indexKeys.forM fun elements => do
    let _ ← KeySchema.ofElements elements request.definitions
  .ok {
    name := request.table
    pendingPolls := activationPolls
    keyElements := request.keyElements
    definitions := request.definitions
    throughput := request.throughput
    globalIndexes := request.globalIndexes
    localIndexes := request.localIndexes
    storage := { keySchema } }

def status (table : MemoryTable) : TableStatus :=
  if 0 < table.pendingPolls then .creating else .active

/-- Looks at the table once. -/
def poll (table : MemoryTable) : TableStatus × MemoryTable :=
  (table.status, { table with pendingPolls := table.pendingPolls - 1 })

/-- The key schema of an index. -/
def indexSchema (table : MemoryTable) (index : String) : Except StoreError KeySchema :=
  let elements :=
    ((table.globalIndexes.find? (·.name == index)).map (·.keyElements)).or
      ((table.localIndexes.find? (·.name == index)).map (·.keyElements))
  match elements with
  | none =>
    .error (.validation ("The table does not have the specified index: " ++ index))
  | some elements =>
    (KeySchema.ofElements elements table.definitions).mapError fun error =>
      .validation error.message

/-- The key schema of an index, or of the table itself. -/
def keySchemaFor (table : MemoryTable) : Option String → Except StoreError KeySchema
  | none => .ok table.storage.keySchema
  | some index => table.indexSchema index

/-- What is reported about a table. There is no clock here, so the time at which the table was made
is left out. -/
def describe (table : MemoryTable) (status : TableStatus) : TableDescription where
  name := some table.name
  status := some status
  keyElements := table.keyElements
  definitions := table.definitions
  itemCount := some (min table.storage.itemCount (Nat.pow 2 63 - 1) : Nat)
  createdAt := none
  throughput := table.throughput
  globalIndexes := table.globalIndexes
  localIndexes := table.localIndexes

end MemoryTable

end KeyedStore
