import KeyedStore.Proofs.Memory.Pages
import KeyedStore.Proofs.Memory.Reachability

/-!
# Access to tables

Queries and scans are answered alike: the request is resolved against the keys and indexes of the
table, and the answer is a cut of the items that it selects.
-/
namespace KeyedStore

/-- A request that is answered with a page of items. -/
inductive PageRequest where
  | query (request : Query)
  | scan (request : Scan)

/-- A request for a page of items, resolved against a table. -/
structure Access where
  reading : Reading
  /-- The partition that holds the items, none for all partitions. -/
  partition : Option KeyValue
  /-- Whether the request is about an item. -/
  selects : Item → Bool
  filter : Option Expr
  bindings : Bindings
  /-- The index whose key continuation keys hold though it is not read in its order. -/
  scanned : Option KeySchema

namespace Access

/-- The items of a table that the request is about. -/
def matching (access : Access) (table : MemoryTable) : List Item :=
  table.storage.allItems.filter access.selects

/-- The items that a page is cut from. -/
def candidates (access : Access) (table : MemoryTable) : List Item :=
  (match access.partition with
  | some hash => table.storage.partitionItems hash
  | none => table.storage.allItems).filter access.selects

/-- Whether the filter is true on an item. -/
def keeps (access : Access) (item : Item) : Bool :=
  access.filter.all fun expr => (access.bindings.evaluate item expr).toOption = some true

/-- The access that resumes after a key. -/
def after (access : Access) (startKey : Item) : Access :=
  { access with reading := { access.reading with startKey } }

def unfiltered (access : Access) : Access := { access with filter := none }

/-- The access of a query, given the keys it reads by and its expressions. -/
def ofQuery (table : MemoryTable) (request : Query) (limit : Nat) (schema : KeySchema)
    (filter : Option Expr) (condition : KeyCondition) : Access where
  reading := {
    keys := table.storage.keySchema
    index := request.index.map fun _ => schema
    forward := request.forward.getD true
    startKey := request.startKey
    limit }
  partition := match request.index with
    | none => some condition.partition
    | some _ => none
  selects := condition.accepts schema
  filter
  bindings := { names := request.names, values := request.values }
  scanned := none

/-- The access of a scan, given the keys of the index and the filter. -/
def ofScan (table : MemoryTable) (request : Scan) (limit : Nat) (index : Option KeySchema)
    (filter : Option Expr) : Access where
  reading := {
    keys := table.storage.keySchema
    index := none
    forward := true
    startKey := request.startKey
    limit }
  partition := none
  selects := fun item => index.all fun schema => schema.names.all item.contains
  filter
  bindings := { names := request.names, values := request.values }
  scanned := index

/-- The continuation key of a page that ends with an item. -/
def continuationKey (access : Access) (item : Item) : Item :=
  match access.scanned with
  | some schema => OrderedMap.insertAll (access.reading.continuationKey item) (schema.project item)
  | none => access.reading.continuationKey item

/-- The continuation key of an answer, given the page that was cut. -/
def lastKey (access : Access) (page : Page) : Option Item :=
  match page.lastKey, page.items.getLast?, access.scanned with
  | some key, some last, some schema => some (OrderedMap.insertAll key (schema.project last))
  | key, _, _ => key

/-- The continuation key of a page is that of the answer if it is complete. -/
theorem lastKey_eq {access : Access} (h : access.scanned = none) (page : Page) :
    access.lastKey page = page.lastKey := by
  unfold lastKey
  rw [h]
  cases page.lastKey <;> cases page.items.getLast? <;> rfl

/-- The page of items that answers a request. -/
def answer (access : Access) (table : MemoryTable) : Except StoreError ItemPage := do
  let page ← (access.reading.page (access.candidates table)).mapError StorageError.toStoreError
  let items ← MemoryStore.keep access.bindings access.filter page.items
  .ok {
    items
    count := MemoryStore.count items.length
    scannedCount := MemoryStore.count page.items.length
    lastKey := access.lastKey page }

end Access

namespace PageRequest

def table : PageRequest → String
  | query request => request.table
  | scan request => request.table

def startKey : PageRequest → Item
  | query request => request.startKey
  | scan request => request.startKey

def limit : PageRequest → Option Int
  | query request => request.limit
  | scan request => request.limit

/-- The request for the page after a key. -/
def after (startKey : Item) : PageRequest → PageRequest
  | query request => query { request with startKey }
  | scan request => scan { request with startKey }

/-- The request for the same page with all items that the store evaluates. -/
def unfiltered : PageRequest → PageRequest
  | query request => query { request with filter := none }
  | scan request => scan { request with filter := none }

/-- The answer of a store. -/
def answer (store : MemoryStore) : PageRequest → Except StoreError ItemPage
  | query request => store.query request
  | scan request => store.scan request

/-- Resolves a request against a table, for pages of a size at most. -/
def access (table : MemoryTable) (pageSize : Nat) : PageRequest → Except StoreError Access
  | query request => do
    let limit ← MemoryStore.pageLimit request.limit pageSize
    let schema ← table.keySchemaFor request.index
    let some keyExpr ← MemoryStore.parseOptional request.keyCondition
      | throw (.validation "KeyConditionExpression is required")
    let filter ← MemoryStore.parseOptional request.filter
    let condition ← KeyCondition.resolve schema ⟨request.names, request.values⟩ keyExpr
    .ok (.ofQuery table request limit schema filter condition)
  | scan request => do
    let limit ← MemoryStore.pageLimit request.limit pageSize
    let index ← match request.index with
      | some index => some <$> table.indexSchema index
      | none => .ok none
    let filter ← MemoryStore.parseOptional request.filter
    .ok (.ofScan table request limit index filter)

variable {request : PageRequest} {store : MemoryStore} {table other : MemoryTable} {pageSize : Nat}
  {access : Access} {startKey : Item} {page : ItemPage}

/-- A request is answered by its access to the table. -/
theorem answer_eq (request : PageRequest) (store : MemoryStore) :
    request.answer store = (do
      let table ← store.table request.table
      let access ← request.access table store.config.pageSize
      access.answer table) := by
  cases request with
  | query request =>
    apply bind_congr
    intro table
    simp only [access, bind_assoc]
    refine bind_congr fun limit => bind_congr fun schema => bind_congr fun keyExpr => ?_
    cases keyExpr with
    | none => rfl
    | some keyExpr =>
      simp only [bind_assoc]
      refine bind_congr fun filter => bind_congr fun condition => ?_
      have hlastKey := @Access.lastKey_eq (.ofQuery table request limit schema filter condition) rfl
      simp only [ok_bind, Access.answer, hlastKey]
      simp only [Access.candidates, Access.ofQuery]
      cases request.index <;> rfl
  | scan request =>
    apply bind_congr
    intro table
    simp only [access, bind_assoc]
    apply bind_congr
    intro limit
    cases request.index with
    | none =>
      simp only [ok_bind, bind_assoc]
      exact bind_congr fun filter => rfl
    | some index =>
      simp only [bind_assoc]
      exact bind_congr fun index => bind_congr fun filter => rfl

/-- What a query is resolved to. -/
theorem access_query_eq_ok_iff {request : Query} :
    (query request).access table pageSize = .ok access ↔
      ∃ limit schema keyExpr filter condition,
        MemoryStore.pageLimit request.limit pageSize = .ok limit ∧
        table.keySchemaFor request.index = .ok schema ∧
        MemoryStore.parseOptional request.keyCondition = .ok (some keyExpr) ∧
        MemoryStore.parseOptional request.filter = .ok filter ∧
        KeyCondition.resolve schema ⟨request.names, request.values⟩ keyExpr = .ok condition ∧
        access = .ofQuery table request limit schema filter condition := by
  constructor
  · intro h
    obtain ⟨limit, hlimit, h⟩ := bind_eq_ok_iff.1 h
    obtain ⟨schema, hschema, h⟩ := bind_eq_ok_iff.1 h
    obtain ⟨keyExpr, hkeyExpr, h⟩ := bind_eq_ok_iff.1 h
    cases keyExpr with
    | none => cases h
    | some keyExpr =>
      obtain ⟨filter, hfilter, h⟩ := bind_eq_ok_iff.1 h
      obtain ⟨condition, hcondition, h⟩ := bind_eq_ok_iff.1 h
      cases h
      exact ⟨limit, schema, keyExpr, filter, condition, hlimit, hschema, hkeyExpr, hfilter,
        hcondition, rfl⟩
  · rintro ⟨limit, schema, keyExpr, filter, condition, hlimit, hschema, hkeyExpr, hfilter,
      hcondition, rfl⟩
    simp [access, hlimit, hschema, hkeyExpr, hfilter, hcondition]

/-- What a scan is resolved to. -/
theorem access_scan_eq_ok_iff {request : Scan} :
    (scan request).access table pageSize = .ok access ↔
      ∃ limit index filter,
        MemoryStore.pageLimit request.limit pageSize = .ok limit ∧
        request.index.mapM table.indexSchema = .ok index ∧
        MemoryStore.parseOptional request.filter = .ok filter ∧
        access = .ofScan table request limit index filter := by
  constructor
  · intro h
    obtain ⟨limit, hlimit, h⟩ := bind_eq_ok_iff.1 h
    cases hindex : request.index with
    | none =>
      simp only [hindex, ok_bind] at h
      obtain ⟨filter, hfilter, h⟩ := bind_eq_ok_iff.1 h
      cases h
      exact ⟨limit, none, filter, hlimit, rfl, hfilter, rfl⟩
    | some index =>
      simp only [hindex] at h
      obtain ⟨schema, hschema, h⟩ := bind_eq_ok_iff.1 h
      obtain ⟨filter, hfilter, h⟩ := bind_eq_ok_iff.1 h
      cases h
      exact ⟨limit, schema, filter, hlimit, hschema, hfilter, rfl⟩
  · rintro ⟨limit, index, filter, hlimit, hindex, hfilter, rfl⟩
    cases hname : request.index with
    | none =>
      simp only [hname, Option.mapM_none] at hindex
      cases hindex
      simp [access, hlimit, hname, hfilter]
    | some name =>
      rw [hname, Option.mapM_some] at hindex
      obtain ⟨schema, hschema, rfl⟩ := map_eq_ok_iff.1 hindex
      simp [access, hlimit, hname, hschema, hfilter]

/-- What the access to a table takes from the table and the request. -/
theorem reading_of_access (h : request.access table pageSize = .ok access) :
    access.reading.keys = table.storage.keySchema ∧ access.reading.startKey = request.startKey ∧
      MemoryStore.pageLimit request.limit pageSize = .ok access.reading.limit := by
  cases request with
  | query request =>
    obtain ⟨limit, schema, keyExpr, filter, condition, hlimit, -, -, -, -, rfl⟩ :=
      access_query_eq_ok_iff.1 h
    exact ⟨rfl, rfl, hlimit⟩
  | scan request =>
    obtain ⟨limit, index, filter, hlimit, -, -, rfl⟩ := access_scan_eq_ok_iff.1 h
    exact ⟨rfl, rfl, hlimit⟩

/-- The access goes by the keys and indexes of a table, and not by its items. -/
theorem access_congr (h : table.SameLayout other) :
    request.access other pageSize = request.access table pageSize := by
  cases request with
  | query request => simp only [access, h.keySchemaFor_eq, Access.ofQuery, h.keySchema]
  | scan request => simp only [access, h.indexSchema_eq, Access.ofScan, h.keySchema]

theorem access_after (startKey : Item) (h : request.access table pageSize = .ok access) :
    (request.after startKey).access table pageSize = .ok (access.after startKey) := by
  cases request with
  | query request =>
    obtain ⟨limit, schema, keyExpr, filter, condition, hlimit, hschema, hkeyExpr, hfilter,
      hcondition, rfl⟩ := access_query_eq_ok_iff.1 h
    exact access_query_eq_ok_iff.2 ⟨limit, schema, keyExpr, filter, condition, hlimit, hschema,
      hkeyExpr, hfilter, hcondition, rfl⟩
  | scan request =>
    obtain ⟨limit, index, filter, hlimit, hindex, hfilter, rfl⟩ := access_scan_eq_ok_iff.1 h
    exact access_scan_eq_ok_iff.2 ⟨limit, index, filter, hlimit, hindex, hfilter, rfl⟩

theorem access_unfiltered (h : request.access table pageSize = .ok access) :
    request.unfiltered.access table pageSize = .ok access.unfiltered := by
  cases request with
  | query request =>
    obtain ⟨limit, schema, keyExpr, filter, condition, hlimit, hschema, hkeyExpr, -, hcondition,
      rfl⟩ := access_query_eq_ok_iff.1 h
    exact access_query_eq_ok_iff.2 ⟨limit, schema, keyExpr, none, condition, hlimit, hschema,
      hkeyExpr, rfl, hcondition, rfl⟩
  | scan request =>
    obtain ⟨limit, index, filter, hlimit, hindex, -, rfl⟩ := access_scan_eq_ok_iff.1 h
    exact access_scan_eq_ok_iff.2 ⟨limit, index, none, hlimit, hindex, rfl, rfl⟩

end PageRequest

end KeyedStore
