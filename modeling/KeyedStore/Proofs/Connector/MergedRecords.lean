import KeyedStore.Proofs.Connector.CreatedRecords
import KeyedStore.Proofs.Connector.Updates

/-!
# Merged records

An update merges its changes into the record that its identifier names. The names and values of the
changes come back from the expression that is made of them, whatever placeholders they get.
-/
namespace KeyedStore

namespace Schema

variable {schema : Schema} {key changes : Record} {previous merged : Item}

/-- An item that is merged with changes keeps its key. -/
theorem IsMerged.keyOf (h : schema.IsMerged key changes previous merged) :
    (schema.readKey none).keyOf merged = (schema.readKey none).keyOf previous :=
  KeySchema.keyOf_congr fun _ hname => h.get?_of_isKey (isKey_of_mem_names hname)

end Schema

namespace Connector

/-- An update that succeeds merges what it sets into the item under the key of its identifier, or
into the key where there is no item, and answers that item. It changes nothing else. If it has
nothing to set, it changes nothing and answers the record that it finds, or the key. -/
theorem update_merges {schema : Schema} {store after : MemoryStore}
    (hprovisioned : schema.IsProvisioned store) {id : Json} {changes record : Record}
    (hdistinct : (changes.map (·.1)).Nodup)
    (hupdate : (Connector.local.update schema id changes).run.run store = (.ok record, after)) :
    ∃ (key : Record) (table : MemoryTable) (own : PrimaryKey),
      schema.keyForId id = .ok key ∧ store.table schema.tableName = .ok table ∧
      MemoryStore.requestKey table.storage.keySchema (Record.toItem key) = .ok own ∧
      ((∃ name, (schema.setting? key changes name).isSome) →
        ∃ (merged : Item) (storage : TableStorage),
          schema.IsMerged key changes ((table.storage.get? own).getD (Record.toItem key)) merged ∧
          record = Item.toRecord merged ∧
          (∀ other, storage.get? other =
            if other.same own then some merged else table.storage.get? other) ∧
          ∀ name, after.table name =
            if name = schema.tableName then .ok { table with storage } else store.table name) ∧
      ((∀ name, schema.setting? key changes name = none) →
        after = store ∧ record = ((table.storage.get? own).map Item.toRecord).getD key) := by
  obtain ⟨key, table, own, hkey, htable, hown, hcases⟩ := update_eq_ok hdistinct hupdate
  refine ⟨key, table, own, hkey, htable, hown, ?_⟩
  rcases hcases with ⟨hnone, hsame, hrecord⟩ |
    ⟨merged, replaced, storage, ⟨name, hname⟩, hmerged, hput, hafter, hrecord⟩
  · refine ⟨fun ⟨name, hname⟩ => ?_, fun _ => ⟨hsame, hrecord⟩⟩
    simp [hnone name] at hname
  · refine ⟨fun _ => ⟨merged, storage, hmerged, hrecord, fun other => ?_, fun name => ?_⟩,
      fun hnone => by simp [hnone name] at hname⟩
    · -- The key of the merged item is the one that was asked for, perhaps spelled otherwise.
      obtain ⟨found, hfound, hschema⟩ := hprovisioned.exists_table
      obtain rfl : table = found := Except.ok.inj (htable.symm.trans hfound)
      have hsound := hprovisioned.isSound.storage_of_table htable
      obtain ⟨stored, hstored, hsame⟩ :=
        hsound.exists_keyOf_getD (MemoryStore.keyOf_of_requestKey hown)
      obtain ⟨own', hown', -, -, hget⟩ := TableStorage.put_eq_ok hput
      rw [hschema, hmerged.keyOf, ← hschema, hstored] at hown'
      obtain rfl := Except.ok.inj hown'
      have hcongr : other.same stored ↔ other.same own :=
        ⟨fun h => PrimaryKey.same_trans h (PrimaryKey.same_comm ▸ hsame),
          fun h => PrimaryKey.same_trans h hsame⟩
      rw [hget]
      exact if_congr hcongr rfl rfl
    · have hname := hprovisioned.isSound.name_of_table htable
      rw [hafter, MemoryStore.table_setTable, ← hname]

/-- Changes of an order: one of its total, one of its number and one that sets nothing. -/
def orderChanges : Record :=
  [("total", .num (.int 10 inRange_ten)), ("orderId", .num (.int 6 inRange_six)), ("note", .null)]

/-- An order that is not there is made of its key and the changes of other attributes. -/
theorem update_merges_order : ∃ (record : Record) (after : MemoryStore) (merged : Item)
      (storage : TableStorage),
    (Connector.local.update orders (.str "c1--x--5") orderChanges).run.run (orders.freshStore {}) =
      (.ok record, after) ∧
    record = Item.toRecord merged ∧
    (∀ name, after.table name = if name = "Order" then
      .ok { orders.provisioned 1 with storage } else (orders.freshStore {}).table name) ∧
    merged.get? "total" = some (.number "10") ∧ merged.get? "orderId" = some (.number "5") ∧
    merged.get? "id" = some (.string "c1--x--5") ∧ merged.get? "note" = none := by
  have hok : ((Connector.local.update orders (.str "c1--x--5") orderChanges).run.run
      (orders.freshStore {}) : Except Interruption Record × MemoryStore).1.isOk := by
    decide +kernel
  obtain ⟨record, hupdate⟩ := Operation.exists_eq_ok_of_isOk hok
  obtain ⟨key, table, own, hkey, htable, -, hsets, -⟩ :=
    update_merges (orders.isProvisioned_freshStore {}) (by decide) hupdate
  have hnamed : orders.keyForId (.str "c1--x--5") =
      .ok [("customerId", .str "c1"), ("orderId", .num (.int 5 (by decide)))] := by
    with_unfolding_all rfl
  have hfresh : (orders.freshStore {}).table orders.tableName = .ok (orders.provisioned 1) := rfl
  obtain rfl := Except.ok.inj (hnamed.symm.trans hkey)
  obtain rfl := Except.ok.inj (hfresh.symm.trans htable)
  obtain ⟨merged, storage, hmerged, hrecord, -, hafter⟩ := hsets ⟨"total", rfl⟩
  have hnone : (orders.provisioned 1).storage.get? own = none := rfl
  rw [hnone] at hmerged
  exact ⟨record, _, merged, storage, hupdate, hrecord, hafter,
    (hmerged "total").trans (by decide +kernel), (hmerged "orderId").trans (by decide +kernel),
    (hmerged "id").trans (by decide +kernel), (hmerged "note").trans (by decide +kernel)⟩

end Connector

end KeyedStore
