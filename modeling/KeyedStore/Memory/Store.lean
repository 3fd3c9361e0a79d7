import KeyedStore.Expression.Parser
import KeyedStore.Memory.Config
import KeyedStore.Memory.KeyCondition
import KeyedStore.Memory.Page
import KeyedStore.Memory.Table
import KeyedStore.Store.Answer

/-!
# A store in memory

Answers requests over tables held in memory. An answer comes with the store as it is afterwards; an
error comes without one, for a request that fails changes nothing.
-/
namespace KeyedStore

/-- Tables in memory, by name. -/
structure MemoryStore where
  config : MemoryConfig := {}
  tables : OrderedMap String MemoryTable := []

namespace MemoryStore

/-- The table with a name. -/
def table (store : MemoryStore) (name : String) : Except StoreError MemoryTable :=
  match store.tables.get? name with
  | some table => .ok table
  | none => .error (.resourceNotFound s!"Requested resource not found: Table: {name} not found")

/-- Replaces a table. -/
def setTable (store : MemoryStore) (table : MemoryTable) : MemoryStore :=
  { store with tables := store.tables.insert table.name table }

/-- The most entries of a page: the limit asked for, but no more than the store allows. -/
def pageLimit (limit : Option Int) (most : Nat) : Except StoreError Nat :=
  match limit with
  | none => .ok most
  | some n =>
    if n ≤ 0 then .error (.validation "Limit must be greater than 0") else .ok (min n.toNat most)

/-- A count of the signed 32-bit range. -/
def count (n : Nat) : Int := min n (Nat.pow 2 31 - 1)

/-- The key that a request names. It must have exactly the key attributes of the table. -/
def requestKey (schema : KeySchema) (key : Item) : Except StoreError PrimaryKey :=
  if key.length ≠ schema.attributes.length then
    .error (.validation "The provided key element does not match the schema")
  else (schema.keyOf key).mapError StorageError.toStoreError

/-- Reads an expression where there is one. -/
def parseOptional : Option String → Except StoreError (Option Expr)
  | none => .ok none
  | some text => (some <$> Expr.parse text).mapError ExpressionError.toStoreError

/-- The items that a filter keeps. -/
def keep (bindings : Bindings) (filter : Option Expr) (items : List Item) :
    Except StoreError (List Item) :=
  match filter with
  | none => .ok items
  | some expr =>
    (items.filterM fun item => bindings.evaluate item expr).mapError ExpressionError.toStoreError

/-- Table names after a start, a page of them. -/
def listTables (store : MemoryStore) (request : ListTables) : Except StoreError TableNames := do
  let limit ← pageLimit request.limit store.config.namesPageSize
  let names := store.tables.keys.filter fun name =>
    request.startAfter.all fun start => start < name
  let page := names.take limit
  .ok { names := page, last := if limit < names.length then page.getLast? else none }

/-- Creates a table whose name is free. -/
def createTable (store : MemoryStore) (request : CreateTable) :
    Except StoreError (TableAnswer × MemoryStore) := do
  let table ← (MemoryTable.ofRequest request store.config.activationPolls).mapError
    StorageError.toStoreError
  if store.tables.contains table.name then
    throw (.resourceInUse ("Table already exists: " ++ table.name))
  .ok ({ table := some (table.describe table.status) }, store.setTable table)

/-- Looks at a table, which brings a new one closer to being active. -/
def describeTable (store : MemoryStore) (request : DescribeTable) :
    Except StoreError (TableAnswer × MemoryStore) := do
  let (status, table) := (← store.table request.table).poll
  .ok ({ table := some (table.describe status) }, store.setTable table)

/-- The item under a key. -/
def getItem (store : MemoryStore) (request : GetItem) : Except StoreError ItemAnswer := do
  let table ← store.table request.table
  let key ← requestKey table.storage.keySchema request.key
  .ok { item := table.storage.get? key }

/-- Stores an item. -/
def putItem (store : MemoryStore) (request : PutItem) :
    Except StoreError (ItemAnswer × MemoryStore) := do
  let table ← store.table request.table
  let returnValues := request.returnValues.getD .none
  if returnValues = .allNew then
    throw (.validation "ReturnValues ALL_NEW is not valid for PutItem")
  let (old, storage) ← (table.storage.put request.item).mapError StorageError.toStoreError
  .ok ({ item := old.filter fun _ => returnValues = .allOld },
    store.setTable { table with storage })

/-- Checks that an update leaves the key attributes alone. -/
def checkPath (schema : KeySchema) (bindings : Bindings) (path : String) :
    Except StoreError Unit := do
  let name ← (bindings.resolve path).mapError ExpressionError.toStoreError
  if schema.names.contains name then
    .error (.validation s!"Cannot update attribute {name}. This attribute is part of the key")

/-- An item changed by an update. -/
def updated (schema : KeySchema) (bindings : Bindings) (update : Update) (item : Item) :
    Except StoreError Item := do
  update.paths.forM (checkPath schema bindings)
  match bindings.apply item update item with
  | (none, target) => .ok target
  | (some error, _) => .error error.toStoreError

/-- Updates the item under a key, or the key itself where there is no item. -/
def updateItem (store : MemoryStore) (request : UpdateItem) :
    Except StoreError (ItemAnswer × MemoryStore) := do
  let table ← store.table request.table
  let schema := table.storage.keySchema
  let key ← requestKey schema request.key
  let existing := table.storage.get? key
  let item := existing.getD request.key
  let changed ← match request.update with
    | none => .ok item
    | some text => do
      let update ← (Update.parse text).mapError ExpressionError.toStoreError
      updated schema { names := request.names, values := request.values } update item
  let (_, storage) ← (table.storage.put changed).mapError StorageError.toStoreError
  let answer := match request.returnValues.getD .none with
    | .allNew => some changed
    | .allOld => existing
    | .none => none
  .ok ({ item := answer }, store.setTable { table with storage })

/-- Removes the item under a key. -/
def deleteItem (store : MemoryStore) (request : DeleteItem) :
    Except StoreError (ItemAnswer × MemoryStore) := do
  let table ← store.table request.table
  let key ← requestKey table.storage.keySchema request.key
  let (removed, storage) := table.storage.delete key
  .ok ({ item := removed.filter fun _ => request.returnValues = some .allOld },
    store.setTable { table with storage })

/-- A page of the items of one partition of the table or an index. -/
def query (store : MemoryStore) (request : Query) : Except StoreError ItemPage := do
  let table ← store.table request.table
  let limit ← pageLimit request.limit store.config.pageSize
  let schema ← table.keySchemaFor request.index
  let some keyExpr ← parseOptional request.keyCondition
    | throw (.validation "KeyConditionExpression is required")
  let filter ← parseOptional request.filter
  let bindings : Bindings := { names := request.names, values := request.values }
  let condition ← KeyCondition.resolve schema bindings keyExpr
  let candidates := match request.index with
    | none => table.storage.partitionItems condition.partition
    | some _ => table.storage.allItems
  let reading : Reading := {
    keys := table.storage.keySchema
    index := request.index.map fun _ => schema
    forward := request.forward.getD true
    startKey := request.startKey
    limit }
  let page ← (reading.page (candidates.filter (condition.accepts schema))).mapError
    StorageError.toStoreError
  let items ← keep bindings filter page.items
  .ok {
    items
    count := count items.length
    scannedCount := count page.items.length
    lastKey := page.lastKey }

/-- A page of all items of the table, or of those in an index. Either way they are read in the order
of the table. -/
def scan (store : MemoryStore) (request : Scan) : Except StoreError ItemPage := do
  let table ← store.table request.table
  let limit ← pageLimit request.limit store.config.pageSize
  let index ← match request.index with
    | some index => some <$> table.indexSchema index
    | none => .ok none
  let filter ← parseOptional request.filter
  let bindings : Bindings := { names := request.names, values := request.values }
  let candidates := table.storage.allItems.filter fun item =>
    index.all fun schema => schema.names.all item.contains
  let reading : Reading := {
    keys := table.storage.keySchema
    index := none
    forward := true
    startKey := request.startKey
    limit }
  let page ← (reading.page candidates).mapError StorageError.toStoreError
  let lastKey := match page.lastKey, page.items.getLast?, index with
    | some key, some last, some schema => some (OrderedMap.insertAll key (schema.project last))
    | key, _, _ => key
  let items ← keep bindings filter page.items
  .ok {
    items
    count := count items.length
    scannedCount := count page.items.length
    lastKey }

/-- The answer to a request that changes nothing. -/
def unchanged {α : Type} (store : MemoryStore) (answer : Except StoreError α) :
    Except StoreError (α × MemoryStore) :=
  answer.map fun answer => (answer, store)

/-- Answers a request. -/
def answer (store : MemoryStore) :
    (request : Request) → Except StoreError (request.Answer × MemoryStore)
  | .listTables request => store.unchanged (store.listTables request)
  | .createTable request => store.createTable request
  | .describeTable request => store.describeTable request
  | .getItem request => store.unchanged (store.getItem request)
  | .putItem request => store.putItem request
  | .updateItem request => store.updateItem request
  | .deleteItem request => store.deleteItem request
  | .query request => store.unchanged (store.query request)
  | .scan request => store.unchanged (store.scan request)

end MemoryStore

end KeyedStore
