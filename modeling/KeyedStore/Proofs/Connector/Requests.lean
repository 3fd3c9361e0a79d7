import KeyedStore.Connector.Local
import KeyedStore.Proofs.Memory.Pages
import KeyedStore.Proofs.Memory.Reachability
import KeyedStore.Proofs.Memory.Refinement
import KeyedStore.Proofs.Model.Provisioning

/-!
# Requests of a connector

What the operations of a connector over a store in memory come down to: which request they make, and
what the request does to the table of the model.
-/
namespace KeyedStore

namespace Operation

variable {σ α β : Type} {x : Operation σ α} {s after : σ} {a : α} {b : β}

theorem run_bind (x : Operation σ α) (f : α → Operation σ β) (s : σ) :
    (x >>= f).run.run s = match (x.run.run s : Except Interruption α × σ) with
      | (.ok a, middle) => (f a).run.run middle
      | (.error error, middle) => (.error error, middle) := by
  show (match (x.run.run s : Except Interruption α × σ) with
    | (result, middle) => (ExceptT.bindCont f result).run middle) = _
  rcases (x.run.run s : Except Interruption α × σ) with ⟨result, middle⟩
  cases result <;> rfl

/-- An operation that is known to succeed has a result. -/
theorem exists_eq_ok_of_isOk (h : (x.run.run s : Except Interruption α × σ).1.isOk) :
    ∃ a, x.run.run s = (.ok a, (x.run.run s : Except Interruption α × σ).2) := by
  rcases hrun : (x.run.run s : Except Interruption α × σ) with ⟨result, after⟩
  rw [hrun] at h
  cases result with
  | ok a => exact ⟨a, rfl⟩
  | error error => cases h

/-- A sequence of operations succeeds if all of them do. -/
theorem bind_eq_ok_iff {f : α → Operation σ β} : (x >>= f).run.run s = (.ok b, after) ↔
    ∃ a middle, x.run.run s = (.ok a, middle) ∧ (f a).run.run middle = (.ok b, after) := by
  rw [run_bind]
  rcases (x.run.run s : Except Interruption α × σ) with ⟨result, middle⟩
  cases result with
  | ok a =>
    constructor
    · exact fun h => ⟨a, middle, rfl, h⟩
    · rintro ⟨_, _, heq, h⟩
      cases heq
      exact h
  | error error =>
    constructor
    · exact fun h => nomatch (Prod.ext_iff.1 h).1
    · rintro ⟨_, _, heq, -⟩
      exact nomatch (Prod.ext_iff.1 heq).1

@[simp]
theorem pure_eq_ok_iff {b : α} :
    (pure a : Operation σ α).run.run s = (.ok b, after) ↔ a = b ∧ s = after := by
  constructor
  · intro h
    cases h
    exact ⟨rfl, rfl⟩
  · rintro ⟨rfl, rfl⟩
    rfl

theorem map_eq_ok_iff {f : α → β} : (f <$> x).run.run s = (.ok b, after) ↔
    ∃ a, x.run.run s = (.ok a, after) ∧ f a = b := by
  rw [map_eq_pure_bind, bind_eq_ok_iff]
  simp only [pure_eq_ok_iff]
  constructor
  · rintro ⟨a, _, hx, hf, rfl⟩
    exact ⟨a, hx, hf⟩
  · rintro ⟨a, hx, hf⟩
    exact ⟨a, after, hx, hf, rfl⟩

theorem map_eq_error_iff {f : α → β} {interruption : Interruption} :
    (f <$> x).run.run s = (.error interruption, after) ↔
      x.run.run s = (.error interruption, after) := by
  rw [map_eq_pure_bind, run_bind]
  rcases (x.run.run s : Except Interruption α × σ) with ⟨result, middle⟩
  cases result with
  | ok a =>
    constructor <;>
      · intro h
        cases (Prod.ext_iff.1 h).1
  | error error =>
    constructor <;>
      · intro h
        cases h
        rfl

@[simp]
theorem ofExcept_eq_ok_iff {result : Except ConnectorError α} :
    (ofExcept result : Operation σ α).run.run s = (.ok a, after) ↔ result = .ok a ∧ s = after := by
  cases result with
  | ok b => simpa [ofExcept] using pure_eq_ok_iff
  | error error =>
    constructor
    · exact fun h => nomatch (Prod.ext_iff.1 h).1
    · exact fun h => nomatch h.1

/-- What every operation of a sequence keeps, the sequence keeps. -/
theorem forM_invariant {invariant : σ → Prop} {f : α → Operation σ Unit} {list : List α}
    (hstep : ∀ a s after, invariant s → (f a).run.run s = (.ok (), after) → invariant after)
    (hs : invariant s) (h : (list.forM f).run.run s = (.ok (), after)) : invariant after := by
  induction list generalizing s with
  | nil =>
    obtain ⟨-, rfl⟩ := pure_eq_ok_iff.1 h
    exact hs
  | cons a rest ih =>
    obtain ⟨⟨⟩, middle, hfirst, hrest⟩ := bind_eq_ok_iff.1 h
    exact ih (hstep a s middle hs hfirst) hrest

end Operation

namespace Connector

variable {schema : Schema} {store after : MemoryStore} {id : Json} {fresh : Option String}
  {data record : Record}

/-- A store in memory is asked by answering. -/
theorem ask_eq_ok_iff {request : Request} {answer : request.Answer} :
    (Connector.local.ask request).run.run store = (.ok answer, after) ↔
      store.answer request = .ok (answer, after) := by
  have hrun : (Connector.local.ask request).run.run store =
      (Operation.ofExcept (MemoryStore.service.call request store).1).run.run
        (MemoryStore.service.call request store).2 := rfl
  have hcall : MemoryStore.service.call request store =
      ((MemoryStore.respond request store).1.mapError .store,
        (MemoryStore.respond request store).2) := rfl
  rw [hrun, hcall, Operation.ofExcept_eq_ok_iff, mapError_eq_ok_iff,
    ← MemoryStore.respond_eq_ok_iff, Prod.ext_iff]

theorem keyForId_eq_ok_iff {key : Record} :
    (Connector.keyForId schema id : Operation MemoryStore Record).run.run store = (.ok key, after) ↔
      schema.keyForId id = .ok key ∧ store = after := by
  rw [Connector.keyForId, Operation.ofExcept_eq_ok_iff, mapError_eq_ok_iff]

/-- A record is written as it is prepared. -/
theorem write_eq_ok_iff :
    (Connector.local.write schema fresh data).run.run store = (.ok (id, record), after) ↔
      schema.prepareWrite fresh data = (.ok id, record) ∧ ∃ answer, store.putItem
        { table := schema.tableName, item := Record.toItem record } = .ok (answer, after) := by
  unfold Connector.write
  rcases hprepare : schema.prepareWrite fresh data with ⟨result, written⟩
  simp only [Operation.bind_eq_ok_iff, Operation.ofExcept_eq_ok_iff, Operation.pure_eq_ok_iff,
    mapError_eq_ok_iff, ask_eq_ok_iff, MemoryStore.answer, Prod.mk.injEq]
  constructor
  · rintro ⟨_, _, ⟨rfl, rfl⟩, answer, _, hput, ⟨rfl, rfl⟩, rfl⟩
    exact ⟨⟨rfl, rfl⟩, answer, hput⟩
  · rintro ⟨⟨rfl, rfl⟩, answer, hput⟩
    exact ⟨id, store, ⟨rfl, rfl⟩, answer, after, hput, ⟨rfl, rfl⟩, rfl⟩

theorem create_eq_ok_iff {fresh : String} :
    (Connector.local.create schema fresh data).run.run store = (.ok id, after) ↔
      ∃ record, schema.prepareWrite (some fresh) data = (.ok id, record) ∧ ∃ answer, store.putItem
        { table := schema.tableName, item := Record.toItem record } = .ok (answer, after) := by
  unfold Connector.create
  simp only [Operation.map_eq_ok_iff, Prod.exists, write_eq_ok_iff]
  constructor
  · rintro ⟨_, record, h, rfl⟩
    exact ⟨record, h⟩
  · rintro ⟨record, h⟩
    exact ⟨id, record, h, rfl⟩

theorem save_eq_ok_iff :
    (Connector.local.save schema data).run.run store = (.ok record, after) ↔
      ∃ id, schema.prepareWrite none data = (.ok id, record) ∧ ∃ answer, store.putItem
        { table := schema.tableName, item := Record.toItem record } = .ok (answer, after) := by
  unfold Connector.save
  simp only [Operation.map_eq_ok_iff, Prod.exists, write_eq_ok_iff]
  constructor
  · rintro ⟨id, _, h, rfl⟩
    exact ⟨id, h⟩
  · rintro ⟨id, h⟩
    exact ⟨id, record, h, rfl⟩

/-- A record is found by asking for its key. -/
theorem find_eq_ok_iff {found : Option Record} :
    (Connector.local.find schema id).run.run store = (.ok found, after) ↔
      store = after ∧ ∃ key answer, schema.keyForId id = .ok key ∧
        store.getItem { table := schema.tableName, key := Record.toItem key } = .ok answer ∧
        answer.item.map Item.toRecord = found := by
  unfold Connector.find
  constructor
  · intro h
    obtain ⟨key, _, hrun, hask⟩ := Operation.bind_eq_ok_iff.1 h
    obtain ⟨hkey, rfl⟩ := keyForId_eq_ok_iff.1 hrun
    obtain ⟨answer, _, hanswer, hpure⟩ := Operation.bind_eq_ok_iff.1 hask
    obtain ⟨hget, rfl⟩ := MemoryStore.unchanged_eq_ok (ask_eq_ok_iff.1 hanswer)
    obtain ⟨hfound, rfl⟩ := Operation.pure_eq_ok_iff.1 hpure
    exact ⟨rfl, key, answer, hkey, hget, hfound⟩
  · rintro ⟨rfl, key, answer, hkey, hget, hfound⟩
    have hanswer : store.answer (.getItem { table := schema.tableName, key := Record.toItem key }) =
        .ok (answer, store) := congrArg (Except.map (·, store)) hget
    exact Operation.bind_eq_ok_iff.2 ⟨key, store, keyForId_eq_ok_iff.2 ⟨hkey, rfl⟩,
      Operation.bind_eq_ok_iff.2 ⟨answer, store, ask_eq_ok_iff.2 hanswer,
        Operation.pure_eq_ok_iff.2 ⟨hfound, rfl⟩⟩⟩

/-- A record is removed by its key. -/
theorem destroy_eq_ok_iff {found : Option Record} :
    (Connector.local.destroy schema id).run.run store = (.ok found, after) ↔
      ∃ key answer, schema.keyForId id = .ok key ∧
        store.deleteItem { table := schema.tableName, key := Record.toItem key
                           returnValues := some .allOld } = .ok (answer, after) ∧
        answer.item.map Item.toRecord = found := by
  unfold Connector.destroy
  constructor
  · intro h
    obtain ⟨key, _, hrun, hask⟩ := Operation.bind_eq_ok_iff.1 h
    obtain ⟨hkey, rfl⟩ := keyForId_eq_ok_iff.1 hrun
    obtain ⟨answer, _, hdelete, hpure⟩ := Operation.bind_eq_ok_iff.1 hask
    obtain ⟨hfound, rfl⟩ := Operation.pure_eq_ok_iff.1 hpure
    exact ⟨key, answer, hkey, ask_eq_ok_iff.1 hdelete, hfound⟩
  · rintro ⟨key, answer, hkey, hdelete, hfound⟩
    exact Operation.bind_eq_ok_iff.2 ⟨key, store, keyForId_eq_ok_iff.2 ⟨hkey, rfl⟩,
      Operation.bind_eq_ok_iff.2 ⟨answer, after, ask_eq_ok_iff.2 hdelete,
        Operation.pure_eq_ok_iff.2 ⟨hfound, rfl⟩⟩⟩

/-- The record of an item is removed by the key that the record has. -/
theorem destroyItem_eq_ok {item : Item}
    (h : (Connector.local.destroyItem schema item).run.run store = (.ok (), after)) :
    ∃ key answer, schema.keyOfRecord (Item.toRecord item) = .ok key ∧ store.deleteItem
      { table := schema.tableName, key := Record.toItem key } = .ok (answer, after) := by
  obtain ⟨key, _, hrun, h⟩ := Operation.bind_eq_ok_iff.1 h
  obtain ⟨hkey, rfl⟩ := Operation.ofExcept_eq_ok_iff.1 hrun
  obtain ⟨answer, middle, hask, hpure⟩ := Operation.bind_eq_ok_iff.1 h
  obtain ⟨-, rfl⟩ := Operation.pure_eq_ok_iff.1 hpure
  exact ⟨key, answer, mapError_eq_ok_iff.1 hkey, ask_eq_ok_iff.1 hask⟩

end Connector

namespace MemoryStore

variable {store after : MemoryStore} {name : String} {table : MemoryTable} {item : Item}

/-- The request for a key is granted with the key that an item has, if it has the same key
attributes and the request names no more of them. -/
theorem requestKey_eq {schema : KeySchema} {key : Item} {own : PrimaryKey}
    (hlength : key.length = schema.attributes.length)
    (hkey : ∀ name ∈ schema.names, key.get? name = item.get? name)
    (hown : schema.keyOf item = .ok own) : requestKey schema key = .ok own := by
  rw [requestKey, if_neg (by simpa using hlength), KeySchema.keyOf_congr hkey, hown]
  rfl

/-- An item is put in the storage of its table. -/
theorem putItem_eq_ok {answer : ItemAnswer}
    (h : store.putItem { table := name, item } = .ok (answer, after)) :
    ∃ table replaced storage, store.table name = .ok table ∧
      table.storage.put item = .ok (replaced, storage) ∧
      after = store.setTable { table with storage } := by
  obtain ⟨table, htable, h⟩ := bind_eq_ok_iff.1 h
  obtain ⟨⟨replaced, storage⟩, hput, h⟩ := bind_eq_ok_iff.1 h
  cases h
  exact ⟨table, replaced, storage, htable, mapError_eq_ok_iff.1 hput, rfl⟩

theorem getItem_of_requestKey {key : Item} {own : PrimaryKey}
    (htable : store.table name = .ok table)
    (hkey : requestKey table.storage.keySchema key = .ok own) :
    store.getItem { table := name, key } = .ok { item := table.storage.get? own } := by
  simp [getItem, htable, hkey]

theorem getItem_eq_ok {request : GetItem} {answer : ItemAnswer}
    (h : store.getItem request = .ok answer) : ∃ table own, store.table request.table = .ok table ∧
      requestKey table.storage.keySchema request.key = .ok own ∧
      answer.item = table.storage.get? own := by
  obtain ⟨table, htable, h⟩ := bind_eq_ok_iff.1 h
  obtain ⟨own, hown, h⟩ := bind_eq_ok_iff.1 h
  cases h
  exact ⟨table, own, htable, hown, rfl⟩

/-- An item is removed from the storage of its table. -/
theorem deleteItem_eq_ok {request : DeleteItem} {answer : ItemAnswer}
    (h : store.deleteItem request = .ok (answer, after)) :
    ∃ table key, store.table request.table = .ok table ∧
      requestKey table.storage.keySchema request.key = .ok key ∧
      after = store.setTable { table with storage := (table.storage.delete key).2 } := by
  obtain ⟨table, htable, h⟩ := bind_eq_ok_iff.1 h
  obtain ⟨key, hkey, h⟩ := bind_eq_ok_iff.1 h
  cases h
  exact ⟨table, key, htable, hkey, rfl⟩

theorem deleteItem_of_requestKey {key : Item} {own : PrimaryKey}
    (htable : store.table name = .ok table)
    (hkey : requestKey table.storage.keySchema key = .ok own) :
    store.deleteItem { table := name, key, returnValues := some .allOld } =
      .ok ({ item := table.storage.get? own },
        store.setTable { table with storage := (table.storage.delete own).2 }) := by
  have hfilter : (table.storage.get? own).filter (fun _ => true) = table.storage.get? own := by
    cases table.storage.get? own <;> rfl
  simp [deleteItem, htable, hkey, hfilter]

end MemoryStore

namespace Schema

/-- Whether the table of a schema was made in a store, whatever requests came before and after. -/
structure IsProvisioned (schema : Schema) (store : MemoryStore) : Prop where
  made : ∃ config before answer after, (MemoryStore.empty config).Reaches before ∧
    before.createTable schema.createTable = .ok (answer, after) ∧ after.Reaches store

/-- The store in which only the table of a schema has been made. -/
def freshStore (schema : Schema) (config : MemoryConfig) : MemoryStore :=
  (MemoryStore.empty config).setTable (schema.provisioned config.activationPolls)

variable {schema : Schema} {store : MemoryStore}

theorem isProvisioned_freshStore (schema : Schema) (config : MemoryConfig) :
    schema.IsProvisioned (schema.freshStore config) := by
  have hmade : ∃ answer, (MemoryStore.empty config).createTable schema.createTable =
      .ok (answer, schema.freshStore config) := by
    unfold MemoryStore.createTable
    rw [show (MemoryStore.empty config).config.activationPolls = config.activationPolls from rfl,
      ofRequest_createTable]
    exact ⟨_, rfl⟩
  obtain ⟨answer, hmade⟩ := hmade
  exact ⟨config, _, answer, _, .refl, hmade, .refl⟩

/-- The table that has just been made is empty. -/
theorem allItems_freshStore (schema : Schema) {config : MemoryConfig} {table : MemoryTable}
    (h : (schema.freshStore config).table schema.tableName = .ok table) :
    table.storage.allItems = [] := by
  have hmade : (schema.freshStore config).tables.get? schema.tableName =
      some (schema.provisioned config.activationPolls) :=
    MemoryStore.get?_setTable.trans (if_pos rfl)
  obtain rfl := Option.some.inj (hmade.symm.trans (MemoryStore.table_eq_ok_iff.1 h))
  rfl

theorem IsProvisioned.isSound (h : schema.IsProvisioned store) : store.IsSound := by
  obtain ⟨config, before, answer, after, hbefore, hmade, hafter⟩ := h.made
  have hsound := hbefore.isSound (MemoryStore.isSound_empty config)
  exact hafter.isSound ((MemoryStore.effect_of_createTable hmade).isSound hsound)

/-- The table of a schema keeps its key. -/
theorem IsProvisioned.exists_table (h : schema.IsProvisioned store) :
    ∃ table, store.table schema.tableName = .ok table ∧
      table.storage.keySchema = schema.readKey none := by
  obtain ⟨config, before, answer, after, hbefore, hmade, hafter⟩ := h.made
  have hsound := (MemoryStore.effect_of_createTable hmade).isSound
    (hbefore.isSound (MemoryStore.isSound_empty config))
  have htable : after.tables.get? schema.tableName =
      some (schema.provisioned before.config.activationPolls) := by
    obtain ⟨table, htable, hmade⟩ := bind_eq_ok_iff.1 hmade
    rw [ofRequest_createTable] at htable
    cases htable
    simp only at hmade
    split at hmade
    case isTrue => cases hmade
    case isFalse =>
      cases hmade
      exact MemoryStore.get?_setTable.trans (if_pos rfl)
  obtain ⟨table, hget, hlayout⟩ := (hafter.keeps hsound).tables htable
  exact ⟨table, MemoryStore.table_eq_ok_iff.2 hget, hlayout.keySchema⟩

end Schema

end KeyedStore
