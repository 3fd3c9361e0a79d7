import KeyedStore.Connector.Local
import KeyedStore.Proofs.Memory.Storage

/-!
# Reachable stores

A request that is answered changes at most one table. Whatever requests come in, the storage of each
table stays sound, and tables keep their keys and indexes.
-/
namespace KeyedStore

open Std

/-- Whether two tables have the same keys and indexes. -/
structure MemoryTable.SameLayout (table other : MemoryTable) : Prop where
  keySchema : other.storage.keySchema = table.storage.keySchema
  definitions : other.definitions = table.definitions
  globalIndexes : other.globalIndexes = table.globalIndexes
  localIndexes : other.localIndexes = table.localIndexes

namespace MemoryTable.SameLayout

variable {table middle other : MemoryTable}

theorem refl (table : MemoryTable) : table.SameLayout table := ⟨rfl, rfl, rfl, rfl⟩

theorem trans (h : table.SameLayout middle) (h' : middle.SameLayout other) :
    table.SameLayout other where
  keySchema := h'.keySchema.trans h.keySchema
  definitions := h'.definitions.trans h.definitions
  globalIndexes := h'.globalIndexes.trans h.globalIndexes
  localIndexes := h'.localIndexes.trans h.localIndexes

theorem indexSchema_eq (h : table.SameLayout other) : other.indexSchema = table.indexSchema := by
  unfold indexSchema
  rw [h.definitions, h.globalIndexes, h.localIndexes]

theorem keySchemaFor_eq (h : table.SameLayout other) :
    other.keySchemaFor = table.keySchemaFor := by
  funext index
  cases index with
  | none => exact congrArg Except.ok h.keySchema
  | some index => exact congrFun h.indexSchema_eq index

end MemoryTable.SameLayout

/-- Whether a request is about items. -/
def Request.isOnItems : Request → Bool
  | listTables _ | createTable _ | describeTable _ => false
  | getItem _ | putItem _ | updateItem _ | deleteItem _ | query _ | scan _ => true

namespace UpdateItem

/-- The update that is asked for. Without an expression, it changes nothing. -/
def parsed (request : UpdateItem) : Except ExpressionError Update :=
  match request.update with
  | none => .ok {}
  | some text => Update.parse text

/-- What the placeholders of the update stand for. -/
def bindings (request : UpdateItem) : Bindings where
  names := request.names
  values := request.values

/-- The item that the update starts from: the one under the key, or the key itself. -/
def original (request : UpdateItem) (table : MemoryTable) (key : PrimaryKey) : Item :=
  (table.storage.get? key).getD request.key

/-- The item that is answered, of the one before the update and the one after it. -/
def answered (request : UpdateItem) (before : Option Item) (after : Item) : Option Item :=
  match request.returnValues.getD .none with
  | .allNew => some after
  | .allOld => before
  | .none => none

end UpdateItem

namespace MemoryStore

/-- What answering a request does to a store. -/
inductive Effect (store : MemoryStore) : MemoryStore → Prop where
  | nothing : Effect store store
  | create {request : CreateTable} {table : MemoryTable}
      (free : store.tables.get? table.name = none)
      (made : MemoryTable.ofRequest request store.config.activationPolls = .ok table) :
      Effect store (store.setTable table)
  | poll {name : String} {table : MemoryTable} (found : store.table name = .ok table) :
      Effect store (store.setTable table.poll.2)
  | put {name : String} {table : MemoryTable} {item : Item} {replaced : Option Item}
      {storage : TableStorage} (found : store.table name = .ok table)
      (stored : table.storage.put item = .ok (replaced, storage)) :
      Effect store (store.setTable { table with storage })
  | delete {name : String} {table : MemoryTable} (key : PrimaryKey)
      (found : store.table name = .ok table) :
      Effect store (store.setTable { table with storage := (table.storage.delete key).2 })

variable {store after : MemoryStore} {name : String} {table : MemoryTable}

theorem table_eq_ok_iff : store.table name = .ok table ↔ store.tables.get? name = some table := by
  unfold MemoryStore.table
  cases store.tables.get? name <;> simp

theorem unchanged_eq_ok {α : Type} {answer : Except StoreError α} {a : α}
    (h : store.unchanged answer = .ok (a, after)) : answer = .ok a ∧ after = store := by
  obtain ⟨b, hb, h⟩ := map_eq_ok_iff.1 h
  cases h
  exact ⟨hb, rfl⟩

/-- What answering a request does to a store, told by the kind of the request. -/
inductive Change (store : MemoryStore) : Request → MemoryStore → Prop where
  | list (request : ListTables) : Change store (.listTables request) store
  | create {request : CreateTable} {table : MemoryTable} (named : table.name = request.table)
      (free : store.tables.get? table.name = none)
      (made : MemoryTable.ofRequest request store.config.activationPolls = .ok table) :
      Change store (.createTable request) (store.setTable table)
  | look {request : DescribeTable} {table : MemoryTable}
      (found : store.table request.table = .ok table) :
      Change store (.describeTable request) (store.setTable table.poll.2)
  | read {request : Request} (onItems : request.isOnItems) : Change store request store
  | put {request : Request} (onItems : request.isOnItems) {name : String} {table : MemoryTable}
      {item : Item} {replaced : Option Item} {storage : TableStorage}
      (found : store.table name = .ok table)
      (stored : table.storage.put item = .ok (replaced, storage)) :
      Change store request (store.setTable { table with storage })
  | delete {request : Request} (onItems : request.isOnItems) {name : String} {table : MemoryTable}
      (key : PrimaryKey) (found : store.table name = .ok table) :
      Change store request (store.setTable { table with storage := (table.storage.delete key).2 })

theorem name_of_ofRequest {request : CreateTable} {polls : Nat}
    (h : MemoryTable.ofRequest request polls = .ok table) : table.name = request.table := by
  obtain ⟨keySchema, -, h⟩ := bind_eq_ok_iff.1 h
  obtain ⟨-, -, h⟩ := bind_eq_ok_iff.1 h
  cases h
  rfl

theorem pendingPolls_of_ofRequest {request : CreateTable} {polls : Nat}
    (h : MemoryTable.ofRequest request polls = .ok table) : table.pendingPolls = polls := by
  obtain ⟨keySchema, -, h⟩ := bind_eq_ok_iff.1 h
  obtain ⟨-, -, h⟩ := bind_eq_ok_iff.1 h
  cases h
  rfl

theorem change_of_createTable {request : CreateTable} {answer : TableAnswer}
    (h : store.createTable request = .ok (answer, after)) :
    store.Change (.createTable request) after := by
  obtain ⟨table, hmade, h⟩ := bind_eq_ok_iff.1 h
  have hmade := mapError_eq_ok_iff.1 hmade
  split at h
  case isTrue => cases h
  case isFalse hfree =>
    cases h
    exact .create (name_of_ofRequest hmade) (by simpa [OrderedMap.contains] using hfree) hmade

theorem change_of_describeTable {request : DescribeTable} {answer : TableAnswer}
    (h : store.describeTable request = .ok (answer, after)) :
    store.Change (.describeTable request) after := by
  obtain ⟨table, hfound, h⟩ := bind_eq_ok_iff.1 h
  cases h
  exact .look hfound

theorem change_of_putItem {request : PutItem} {answer : ItemAnswer}
    (h : store.putItem request = .ok (answer, after)) : store.Change (.putItem request) after := by
  obtain ⟨table, hfound, h⟩ := bind_eq_ok_iff.1 h
  simp only at h
  split at h
  case isTrue => cases h
  case isFalse =>
    obtain ⟨⟨old, storage⟩, hput, h⟩ := bind_eq_ok_iff.1 h
    cases h
    exact .put rfl hfound (mapError_eq_ok_iff.1 hput)

/-- A request names a key if it has exactly the attributes of one. -/
theorem keyOf_of_requestKey {schema : KeySchema} {key : Item} {own : PrimaryKey}
    (h : requestKey schema key = .ok own) : schema.keyOf key = .ok own := by
  unfold requestKey at h
  split at h
  case isTrue => cases h
  case isFalse => exact mapError_eq_ok_iff.1 h

/-- An update without an expression is one that changes nothing. -/
theorem updateItem_eq (store : MemoryStore) (request : UpdateItem) :
    store.updateItem request = (do
      let table ← store.table request.table
      let key ← requestKey table.storage.keySchema request.key
      let update ← request.parsed.mapError ExpressionError.toStoreError
      let item ← updated table.storage.keySchema request.bindings update
        (request.original table key)
      let stored ← (table.storage.put item).mapError StorageError.toStoreError
      .ok ({ item := request.answered (table.storage.get? key) item },
        store.setTable { table with storage := stored.2 })) := by
  unfold updateItem UpdateItem.parsed UpdateItem.answered
  cases request.update <;> rfl

/-- An update is answered if its table is there, its key has the attributes of the table's key and
its expression can be applied to the item under the key. What comes of it is stored. -/
theorem updateItem_eq_ok_iff {request : UpdateItem} {answer : ItemAnswer} :
    store.updateItem request = .ok (answer, after) ↔ ∃ table key update item replaced storage,
      store.table request.table = .ok table ∧
      requestKey table.storage.keySchema request.key = .ok key ∧
      request.parsed = .ok update ∧
      updated table.storage.keySchema request.bindings update (request.original table key) =
        .ok item ∧
      table.storage.put item = .ok (replaced, storage) ∧
      answer = { item := request.answered (table.storage.get? key) item } ∧
      after = store.setTable { table with storage } := by
  simp only [updateItem_eq, bind_eq_ok_iff, mapError_eq_ok_iff]
  constructor
  · rintro ⟨table, htable, key, hkey, update, hparsed, item, hitem, ⟨replaced, storage⟩, hput, h⟩
    cases h
    exact ⟨table, key, update, item, replaced, storage, htable, hkey, hparsed, hitem, hput, rfl,
      rfl⟩
  · rintro ⟨table, key, update, item, replaced, storage, htable, hkey, hparsed, hitem, hput, rfl,
      rfl⟩
    exact ⟨table, htable, key, hkey, update, hparsed, item, hitem, (replaced, storage), hput, rfl⟩

theorem change_of_updateItem {request : UpdateItem} {answer : ItemAnswer}
    (h : store.updateItem request = .ok (answer, after)) :
    store.Change (.updateItem request) after := by
  obtain ⟨table, key, update, item, replaced, storage, hfound, -, -, -, hput, -, rfl⟩ :=
    updateItem_eq_ok_iff.1 h
  exact .put rfl hfound hput

theorem change_of_deleteItem {request : DeleteItem} {answer : ItemAnswer}
    (h : store.deleteItem request = .ok (answer, after)) :
    store.Change (.deleteItem request) after := by
  obtain ⟨table, hfound, h⟩ := bind_eq_ok_iff.1 h
  obtain ⟨key, -, h⟩ := bind_eq_ok_iff.1 h
  cases h
  exact .delete rfl key hfound

/-- A request that is answered makes one of the changes. -/
theorem change_of_answer {request : Request} {answer : request.Answer}
    (h : store.answer request = .ok (answer, after)) : store.Change request after := by
  cases request with
  | createTable request => exact change_of_createTable h
  | describeTable request => exact change_of_describeTable h
  | putItem request => exact change_of_putItem h
  | updateItem request => exact change_of_updateItem h
  | deleteItem request => exact change_of_deleteItem h
  | listTables request =>
    obtain ⟨-, rfl⟩ := unchanged_eq_ok h
    exact .list request
  | getItem request | query request | scan request =>
    obtain ⟨-, rfl⟩ := unchanged_eq_ok h
    exact .read rfl

theorem Change.effect {request : Request} (h : store.Change request after) :
    store.Effect after := by
  cases h with
  | list | read => exact .nothing
  | create named free made => exact .create free made
  | look found => exact .poll found
  | put onItems found stored => exact .put found stored
  | delete onItems key found => exact .delete key found

theorem effect_of_createTable {request : CreateTable} {answer : TableAnswer}
    (h : store.createTable request = .ok (answer, after)) : store.Effect after :=
  (change_of_createTable h).effect

/-- A request that is answered has one of the effects. -/
theorem effect_of_answer {request : Request} {answer : request.Answer}
    (h : store.answer request = .ok (answer, after)) : store.Effect after :=
  (change_of_answer h).effect

/-- The invariant of a store. -/
structure IsSound (store : MemoryStore) : Prop where
  name : ∀ {name table}, store.tables.get? name = some table → table.name = name
  storage : ∀ {name table}, store.tables.get? name = some table → table.storage.IsSound

theorem IsSound.name_of_table (h : store.IsSound) (htable : store.table name = .ok table) :
    table.name = name := h.name (table_eq_ok_iff.1 htable)

theorem IsSound.storage_of_table (h : store.IsSound) (htable : store.table name = .ok table) :
    table.storage.IsSound := h.storage (table_eq_ok_iff.1 htable)

/-- A table is found under its name, and the others are as before. -/
theorem get?_setTable : (store.setTable table).tables.get? name =
    if name = table.name then some table else store.tables.get? name := by
  unfold setTable
  split
  case isTrue h =>
    subst h
    exact OrderedMap.get?_insert_self
  case isFalse h =>
    exact OrderedMap.get?_insert_of_ne fun heq => h (LawfulEqCmp.eq_of_compare heq)

theorem table_setTable : (store.setTable table).table name =
    if name = table.name then .ok table else store.table name := by
  have hget : (store.setTable table).tables.get? name =
      if name = table.name then some table else store.tables.get? name := get?_setTable
  split
  case isTrue h => exact table_eq_ok_iff.2 (hget.trans (if_pos h))
  case isFalse h =>
    rw [if_neg h] at hget
    unfold MemoryStore.table
    rw [hget]

theorem IsSound.setTable (h : store.IsSound) {table : MemoryTable}
    (htable : table.storage.IsSound) : (store.setTable table).IsSound := by
  constructor <;> intro name' table' hget <;> rw [get?_setTable] at hget
  · split at hget
    case isTrue hname => rw [← Option.some.inj hget, hname]
    case isFalse => exact h.name hget
  · split at hget
    case isTrue => rwa [← Option.some.inj hget]
    case isFalse => exact h.storage hget

theorem isSound_of_ofRequest {request : CreateTable} {polls : Nat}
    (h : MemoryTable.ofRequest request polls = .ok table) : table.storage.IsSound := by
  obtain ⟨keySchema, -, h⟩ := bind_eq_ok_iff.1 h
  obtain ⟨-, -, h⟩ := bind_eq_ok_iff.1 h
  cases h
  exact TableStorage.isSound_empty keySchema

/-- The invariant is kept. -/
theorem Effect.isSound (heffect : store.Effect after) (h : store.IsSound) : after.IsSound := by
  cases heffect with
  | nothing => exact h
  | create free made => exact h.setTable (isSound_of_ofRequest made)
  | @poll name table found =>
    have htable : table.storage.IsSound := h.storage_of_table found
    exact h.setTable (show table.poll.2.storage.IsSound from htable)
  | put found stored => exact h.setTable ((h.storage_of_table found).put stored)
  | delete key found => exact h.setTable ((h.storage_of_table found).delete key)

/-- Whether every table of a store is there in another one, with the same keys and indexes. -/
structure Keeps (store after : MemoryStore) : Prop where
  config : after.config = store.config
  tables : ∀ {name table}, store.tables.get? name = some table →
    ∃ other, after.tables.get? name = some other ∧ table.SameLayout other

theorem Keeps.refl (store : MemoryStore) : store.Keeps store where
  config := rfl
  tables hget := ⟨_, hget, .refl _⟩

theorem Keeps.trans {middle : MemoryStore} (h : store.Keeps middle) (h' : middle.Keeps after) :
    store.Keeps after where
  config := h'.config.trans h.config
  tables hget := by
    obtain ⟨middle, hmiddle, hlayout⟩ := h.tables hget
    obtain ⟨other, hother, hlayout'⟩ := h'.tables hmiddle
    exact ⟨other, hother, hlayout.trans hlayout'⟩

/-- Replacing a table by one of the same layout keeps all tables. -/
theorem keeps_setTable {other : MemoryTable} (hget : store.tables.get? other.name = some table)
    (hlayout : table.SameLayout other) : store.Keeps (store.setTable other) where
  config := rfl
  tables {name' table'} hget' := by
    rw [get?_setTable]
    split
    case isTrue hname =>
      rw [hname, hget] at hget'
      cases hget'
      exact ⟨other, rfl, hlayout⟩
    case isFalse => exact ⟨table', hget', .refl table'⟩

theorem Effect.keeps (heffect : store.Effect after) (h : store.IsSound) : store.Keeps after := by
  cases heffect with
  | nothing => exact .refl store
  | @create request made free =>
    refine ⟨rfl, fun {name' table'} hget => ?_⟩
    have hname : name' ≠ made.name := fun hname => by simp [hname, free] at hget
    exact ⟨table', by rw [get?_setTable, if_neg hname, hget], .refl table'⟩
  | @poll name table found =>
    have hget := table_eq_ok_iff.1 found
    have hlayout : table.SameLayout table.poll.2 := ⟨rfl, rfl, rfl, rfl⟩
    exact keeps_setTable (h.name hget ▸ hget) hlayout
  | @put name table item replaced storage found stored =>
    have hget := table_eq_ok_iff.1 found
    exact keeps_setTable (h.name hget ▸ hget) ⟨TableStorage.keySchema_put stored, rfl, rfl, rfl⟩
  | @delete name table key found =>
    have hget := table_eq_ok_iff.1 found
    exact keeps_setTable (h.name hget ▸ hget) ⟨table.storage.keySchema_delete key, rfl, rfl, rfl⟩

/-- Whether requests lead from one store to another. -/
inductive Reaches (store : MemoryStore) : MemoryStore → Prop where
  | refl : Reaches store store
  | step {middle after : MemoryStore} {request : Request} {answer : request.Answer}
      (reached : Reaches store middle) (answered : middle.answer request = .ok (answer, after)) :
      Reaches store after

/-- The store without tables. -/
def empty (config : MemoryConfig) : MemoryStore := { config }

theorem isSound_empty (config : MemoryConfig) : (empty config).IsSound := by
  constructor <;> intro name table hget <;> cases hget

section Responses

variable {request : Request} {answer : request.Answer} {error : StoreError}

theorem respond_of_answer (h : store.answer request = .ok (answer, after)) :
    respond request store = (.ok answer, after) := by
  unfold respond
  rw [h]

theorem respond_of_refusal (h : store.answer request = .error error) :
    respond request store = (.error error, store) := by
  unfold respond
  rw [h]

/-- What a store does with a request: it answers and becomes the store after it, or it refuses and
stays as it is. -/
theorem respond_cases (request : Request) (store : MemoryStore) :
    (∃ answer after, store.answer request = .ok (answer, after) ∧
      respond request store = (.ok answer, after)) ∨
    ∃ error, store.answer request = .error error ∧
      respond request store = (.error error, store) := by
  cases hanswer : store.answer request with
  | ok result => exact .inl ⟨_, _, rfl, respond_of_answer hanswer⟩
  | error error => exact .inr ⟨_, rfl, respond_of_refusal hanswer⟩

theorem respond_eq_ok_iff :
    respond request store = (.ok answer, after) ↔ store.answer request = .ok (answer, after) := by
  refine ⟨fun h => ?_, respond_of_answer⟩
  rcases respond_cases request store with ⟨_, _, hanswer, hrespond⟩ | ⟨_, -, hrespond⟩
  · cases hrespond.symm.trans h
    exact hanswer
  · cases hrespond.symm.trans h

/-- A request that fails leaves the store as it is, whatever it asks for. -/
theorem eq_of_respond_eq_error (h : respond request store = (.error error, after)) :
    after = store := by
  rcases respond_cases request store with ⟨_, _, -, hrespond⟩ | ⟨_, -, hrespond⟩
  · cases hrespond.symm.trans h
  · cases hrespond.symm.trans h
    rfl

/-- A request whose answers come with the store as it is changes nothing. -/
theorem snd_respond_eq_self
    (h : ∀ answer after, store.answer request = .ok (answer, after) → after = store) :
    (respond request store).2 = store := by
  rcases respond_cases request store with ⟨_, _, hanswer, hrespond⟩ | ⟨_, -, hrespond⟩
  · rw [hrespond]
    exact h _ _ hanswer
  · rw [hrespond]

end Responses

/-- The store after requests, those that fail among them. -/
def serve (store : MemoryStore) (requests : List Request) : MemoryStore :=
  requests.foldl (fun store request => (respond request store).2) store

/-- Every request leads to a store, whether it is answered or not. -/
theorem reaches_serve (store : MemoryStore) (requests : List Request) :
    store.Reaches (store.serve requests) := by
  have hreaches (middle : MemoryStore) (hmiddle : store.Reaches middle) :
      store.Reaches (middle.serve requests) := by
    induction requests generalizing middle with
    | nil => exact hmiddle
    | cons request rest ih =>
      refine ih (respond request middle).2 ?_
      rcases respond_cases request middle with ⟨_, _, hanswer, hrespond⟩ | ⟨_, -, hrespond⟩
      · rw [hrespond]
        exact hmiddle.step hanswer
      · rw [hrespond]
        exact hmiddle
  exact hreaches store .refl

theorem Reaches.isSound (h : store.Reaches after) (hstore : store.IsSound) : after.IsSound := by
  induction h with
  | refl => exact hstore
  | step _ answered ih => exact (effect_of_answer answered).isSound ih

theorem Reaches.keeps (h : store.Reaches after) (hstore : store.IsSound) : store.Keeps after := by
  induction h with
  | refl => exact .refl store
  | step reached answered ih =>
    exact ih.trans ((effect_of_answer answered).keeps (reached.isSound hstore))

end MemoryStore

end KeyedStore
