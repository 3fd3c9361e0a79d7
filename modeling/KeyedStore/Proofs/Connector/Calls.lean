import KeyedStore.Proofs.Connector.Fetching
import KeyedStore.Proofs.Connector.Updates

/-!
# Calls that write or remove records

What all items of the table of a model have is kept by calls if the items that they write have it.
-/
namespace KeyedStore.Connector

/-- A call that writes or removes records. -/
inductive Call where
  | create (fresh : String) (data : Record)
  | save (data : Record)
  | update (id : Json) (changes : Record)
  | destroy (id : Json)
  | destroyAll (filter : Filter)

namespace Call

/-- Makes a call, whatever it answers. -/
def perform (schema : Schema) : Call → Operation MemoryStore Unit
  | create fresh data => discard (Connector.local.create schema fresh data)
  | save data => discard (Connector.local.save schema data)
  | update id changes => discard (Connector.local.update schema id changes)
  | destroy id => discard (Connector.local.destroy schema id)
  | destroyAll filter => discard (Connector.local.destroyAll schema filter)

/-- Whether no object that a call is made with has a key twice. -/
def IsProper : Call → Prop
  | create _ data | save data => data.IsProper
  | update _ changes => changes.IsProper
  | destroy _ | destroyAll _ => True

end Call

/-- Whether calls that succeed lead from one store to another. They are listed with the stores in
which they were made. -/
inductive CallRun (schema : Schema) (start : MemoryStore) :
    List (MemoryStore × Call) → MemoryStore → Prop where
  | nil : CallRun schema start [] start
  | call {steps : List (MemoryStore × Call)} {before after : MemoryStore} {call : Call}
      (run : CallRun schema start steps before) (proper : call.IsProper)
      (succeeds : (call.perform schema).run.run before = (.ok (), after)) :
      CallRun schema start (steps ++ [(before, call)]) after

/-- Whether the table of a schema is there with its keys, in a sound store, and all its items have a
property. -/
structure Holds (schema : Schema) (property : Item → Prop) (store : MemoryStore) : Prop where
  isSound : store.IsSound
  exists_table : ∃ table, store.table schema.tableName = .ok table ∧
    table.storage.keySchema = schema.readKey none ∧ ∀ item ∈ table.storage.allItems, property item

variable {schema : Schema} {property : Item → Prop} {store after : MemoryStore}
  {table : MemoryTable} {storage : TableStorage} {item : Item}

theorem Holds.of_table (h : Holds schema property store)
    (htable : store.table schema.tableName = .ok table) :
    table.storage.IsSound ∧ table.storage.keySchema = schema.readKey none ∧
      ∀ item ∈ table.storage.allItems, property item := by
  obtain ⟨found, hfound, hschema, hproperty⟩ := h.exists_table
  obtain rfl : table = found := by simpa [htable] using hfound
  exact ⟨h.isSound.storage_of_table htable, hschema, hproperty⟩

/-- A table whose items have the property replaces the one of the schema. -/
theorem Holds.setTable (h : Holds schema property store)
    (htable : store.table schema.tableName = .ok table) (hsound : storage.IsSound)
    (hschema : storage.keySchema = table.storage.keySchema)
    (hitems : ∀ item ∈ storage.allItems, property item ∨ item ∈ table.storage.allItems) :
    Holds schema property (store.setTable { table with storage }) where
  isSound := h.isSound.setTable hsound
  exists_table := by
    obtain ⟨-, hkeys, hproperty⟩ := h.of_table htable
    have hname := h.isSound.name_of_table htable
    refine ⟨{ table with storage }, ?_, hschema.trans hkeys, fun item hmem => ?_⟩
    · rw [MemoryStore.table_setTable, if_pos hname.symm]
    · exact (hitems item hmem).elim id (hproperty item)

theorem Holds.put (h : Holds schema property store)
    (htable : store.table schema.tableName = .ok table) {replaced : Option Item}
    (hput : table.storage.put item = .ok (replaced, storage)) (hitem : property item) :
    Holds schema property (store.setTable { table with storage }) := by
  obtain ⟨hsound, -⟩ := h.of_table htable
  refine h.setTable htable (hsound.put hput) (TableStorage.keySchema_put hput) fun other hmem => ?_
  rcases hsound.mem_allItems_put hput hmem with rfl | hmem
  · exact .inl hitem
  · exact .inr hmem

theorem Holds.putItem (h : Holds schema property store) (hitem : property item)
    {answer : ItemAnswer}
    (hput : store.putItem { table := schema.tableName, item } = .ok (answer, after)) :
    Holds schema property after := by
  obtain ⟨table, replaced, storage, htable, hstored, rfl⟩ := MemoryStore.putItem_eq_ok hput
  exact h.put htable hstored hitem

theorem Holds.deleteItem (h : Holds schema property store)
    {request : DeleteItem} (hrequest : request.table = schema.tableName) {answer : ItemAnswer}
    (hdelete : store.deleteItem request = .ok (answer, after)) : Holds schema property after := by
  obtain ⟨table, key, htable, -, rfl⟩ := MemoryStore.deleteItem_eq_ok hdelete
  rw [hrequest] at htable
  obtain ⟨hsound, -⟩ := h.of_table htable
  exact h.setTable htable (hsound.delete key) (table.storage.keySchema_delete key)
    fun other hmem => .inr (hsound.mem_allItems_delete hmem)

/-- What a removal of all records that a filter selects comes down to: the items are fetched, and
then they are removed one after another. -/
theorem destroyAll_eq_ok {filter : Filter} {n : Nat}
    (h : (Connector.local.destroyAll schema filter).run.run store = (.ok n, after)) :
    ∃ plan items, schema.plan filter.whereOnly = .ok plan ∧
      (Connector.local.fetch plan schema.tableName none).run.run store = (.ok items, store) ∧
      (items.forM (Connector.local.destroyItem schema)).run.run store = (.ok (), after) ∧
      n = items.length := by
  obtain ⟨plan, _, hplanned, hfetched⟩ := Operation.bind_eq_ok_iff.1 h
  obtain ⟨hplan, rfl⟩ := Operation.ofExcept_eq_ok_iff.1 hplanned
  obtain ⟨items, middle, hfetch, hremoved⟩ := Operation.bind_eq_ok_iff.1 hfetched
  have hsame := snd_fetch plan schema.tableName none store
  rw [hfetch] at hsame
  obtain rfl : middle = store := hsame
  obtain ⟨⟨⟩, last, hforM, hpure⟩ := Operation.bind_eq_ok_iff.1 hremoved
  obtain ⟨rfl, rfl⟩ := Operation.pure_eq_ok_iff.1 hpure
  exact ⟨plan, items, mapError_eq_ok_iff.1 hplan, hfetch, hforM, rfl⟩

/-- A call keeps what all items have, if every record that is prepared has it and an update keeps
it. -/
theorem Holds.perform {call : Call} (h : Holds schema property store)
    (hprepared : ∀ fresh data id written, schema.prepareWrite fresh data = (.ok id, written) →
      property (Record.toItem written))
    (hupdated : ∀ id changes record, call = .update id changes →
      (Connector.local.update schema id changes).run.run store = (.ok record, after) →
      Holds schema property after)
    (hcall : (call.perform schema).run.run store = (.ok (), after)) :
    Holds schema property after := by
  cases call with
  | create fresh data =>
    obtain ⟨id, hcreate, -⟩ := Operation.map_eq_ok_iff.1 hcall
    obtain ⟨written, hprepare, answer, hput⟩ := create_eq_ok_iff.1 hcreate
    exact h.putItem (hprepared _ _ _ _ hprepare) hput
  | save data =>
    obtain ⟨written, hsave, -⟩ := Operation.map_eq_ok_iff.1 hcall
    obtain ⟨id, hprepare, answer, hput⟩ := save_eq_ok_iff.1 hsave
    exact h.putItem (hprepared _ _ _ _ hprepare) hput
  | update id changes =>
    obtain ⟨record, hupdate, -⟩ := Operation.map_eq_ok_iff.1 hcall
    exact hupdated id changes record rfl hupdate
  | destroy id =>
    obtain ⟨found, hdestroy, -⟩ := Operation.map_eq_ok_iff.1 hcall
    obtain ⟨key, answer, -, hdelete, -⟩ := destroy_eq_ok_iff.1 hdestroy
    exact h.deleteItem rfl hdelete
  | destroyAll filter =>
    obtain ⟨count, hdestroy, -⟩ := Operation.map_eq_ok_iff.1 hcall
    obtain ⟨plan, items, -, -, hforM, -⟩ := destroyAll_eq_ok hdestroy
    refine Operation.forM_invariant (fun item before after hbefore hitem => ?_) h hforM
    obtain ⟨key, answer, -, hdelete⟩ := destroyItem_eq_ok hitem
    exact hbefore.deleteItem rfl hdelete

theorem holds_of_empty (hprovisioned : schema.IsProvisioned store)
    (hempty : ∀ table, store.table schema.tableName = .ok table → table.storage.allItems = []) :
    Holds schema property store := by
  obtain ⟨table, htable, hschema⟩ := hprovisioned.exists_table
  refine ⟨hprovisioned.isSound, table, htable, hschema, fun item hmem => ?_⟩
  rw [hempty table htable] at hmem
  cases hmem

end KeyedStore.Connector
