import KeyedStore.Proofs.Connector.CompositeIdentifiers

/-!
# Removed records

A removal of all records that a filter selects removes the items that are fetched for it, and no
others. On the way the key of an item becomes JSON and a key again, which keeps it as long as the
attributes of the item were made of JSON.
-/
namespace KeyedStore

/-- Whether the attributes of an item were made of JSON. -/
def Item.HoldsJson (item : Item) : Prop :=
  ∀ name value, item.get? name = some value → ∃ json : Json, value = json.toAttribute

theorem Record.holdsJson_toItem (record : Record) : Item.HoldsJson (Record.toItem record) := by
  intro name value hvalue
  rw [get?_toItem] at hvalue
  obtain ⟨json, -, rfl⟩ := Option.map_eq_some_iff.1 hvalue
  exact ⟨json, rfl⟩

namespace Schema

variable {schema : Schema} {record key : Record} {item : Item} {own : PrimaryKey}

theorem IsMerged.holdsJson {changes : Record} {previous merged : Item}
    (h : schema.IsMerged key changes previous merged) (hprevious : Item.HoldsJson previous) :
    Item.HoldsJson merged := by
  intro name value hvalue
  rw [h name] at hvalue
  rcases Option.or_eq_some_iff.1 hvalue with hset | ⟨-, hkept⟩
  · obtain ⟨json, -, rfl⟩ := Option.map_eq_some_iff.1 hset
    exact ⟨json, rfl⟩
  · exact hprevious name value hkept

/-- The key of a record has the key attributes of the record. -/
theorem get?_keyOfRecord (h : schema.keyOfRecord record = .ok key) {name : String}
    (hname : schema.isKey name) : key.get? name = record.get? name := by
  unfold keyOfRecord at h
  cases hhash : record.get? schema.hashKey with
  | none => simp [hhash] at h
  | some hash =>
    have hkept : Record.get? [(schema.hashKey, hash)] schema.hashKey = some hash := by
      simp [Record.get?]
    cases hrangeKey : schema.rangeKey with
    | none =>
      simp only [hhash, hrangeKey] at h
      cases h
      obtain rfl : name = schema.hashKey := by simpa [isKey, hrangeKey] using hname
      rw [hkept, hhash]
    | some rangeKey =>
      cases hrange : record.get? rangeKey with
      | none => simp [hhash, hrangeKey, hrange] at h
      | some range =>
        simp only [hhash, hrangeKey, hrange] at h
        cases h
        have hcases : name = schema.hashKey ∨ rangeKey = name := by
          simpa [isKey, hrangeKey] using hname
        rw [Record.get?_set]
        rcases hcases with rfl | rfl
        · split
          case isTrue heq => rw [heq, hrange]
          case isFalse => rw [hkept, hhash]
        · rw [if_pos rfl, hrange]

/-- The key of an item that was made of JSON becomes JSON and the same key again. -/
theorem keyOf_keyOfRecord (hitem : Item.HoldsJson item)
    (hown : (schema.readKey none).keyOf item = .ok own)
    (hkey : schema.keyOfRecord (Item.toRecord item) = .ok key) :
    (schema.readKey none).keyOf (Record.toItem key) = .ok own := by
  refine (KeySchema.keyOf_congr fun name hname => ?_).trans hown
  obtain ⟨stored, value, hstored, hvalue⟩ := KeySchema.exists_ofAttribute_of_keyOf hown hname
  obtain ⟨json, rfl⟩ := hitem name stored hstored
  rw [get?_toItem, get?_keyOfRecord hkey (isKey_of_mem_names hname), get?_toRecord, hstored,
    Option.map_some, toJson_toAttribute_of_ofAttribute hvalue, Option.map_some]

end Schema

namespace Connector

variable {schema : Schema} {store after : MemoryStore} {table : MemoryTable} {item : Item}

/-- An update of a table of items that were made of JSON leaves such items. -/
theorem Holds.update (h : Holds schema Item.HoldsJson store) {id : Json} {changes record : Record}
    (hproper : changes.IsProper)
    (hupdate : (Connector.local.update schema id changes).run.run store = (.ok record, after)) :
    Holds schema Item.HoldsJson after := by
  obtain ⟨key, table, own, -, htable, -, hcases⟩ := update_eq_ok hproper.distinct hupdate
  rcases hcases with ⟨-, rfl, -⟩ | ⟨merged, replaced, storage, -, hmerged, hput, rfl, -⟩
  · exact h
  · refine h.put htable hput (hmerged.holdsJson ?_)
    obtain ⟨hsound, -, hitems⟩ := h.of_table htable
    cases hget : table.storage.get? own with
    | none => exact Record.holdsJson_toItem key
    | some previous => exact hitems previous (hsound.get?_eq_some_iff.1 hget).1

/-- Calls write items that are made of JSON. -/
theorem CallRun.holdsJson {start : MemoryStore} {steps : List (MemoryStore × Call)}
    (hrun : CallRun schema start steps store) (hstart : Holds schema Item.HoldsJson start) :
    Holds schema Item.HoldsJson store := by
  induction hrun with
  | nil => exact hstart
  | @call steps before after call run proper succeeds ih =>
    refine ih.perform (fun _ _ _ written _ => written.holdsJson_toItem)
      (fun id changes record heq hupdate => ?_) succeeds
    subst heq
    exact ih.update proper hupdate

/-- The removal of the record of an item removes the item. -/
theorem Holds.destroyItem (h : Holds schema Item.HoldsJson store)
    (htable : store.table schema.tableName = .ok table) (hmem : item ∈ table.storage.allItems)
    (hdestroy : (Connector.local.destroyItem schema item).run.run store = (.ok (), after)) :
    ∃ own, table.storage.get? own = some item ∧
      after = store.setTable { table with storage := (table.storage.delete own).2 } := by
  obtain ⟨hsound, hschema, hitems⟩ := h.of_table htable
  obtain ⟨key, answer, hkey, hdelete⟩ := destroyItem_eq_ok hdestroy
  obtain ⟨table', own, htable', hown, rfl⟩ := MemoryStore.deleteItem_eq_ok hdelete
  obtain rfl : table = table' := Except.ok.inj (htable.symm.trans htable')
  obtain ⟨kept, hkept, hget⟩ := hsound.exists_get? hmem
  -- The key that is asked for is the key of the item, spelled as it is.
  have hasked := MemoryStore.keyOf_of_requestKey hown
  rw [hschema, Schema.keyOf_keyOfRecord (hitems item hmem) (hschema ▸ hkept) hkey] at hasked
  obtain rfl := Except.ok.inj hasked
  exact ⟨kept, hget, rfl⟩

/-- What removing items one after another leaves in a table, and in the other tables. -/
structure Removes (schema : Schema) (items : List Item) (table : MemoryTable)
    (store after : MemoryStore) (storage : TableStorage) : Prop where
  allItems : storage.allItems = table.storage.allItems.filter (· ∉ items)
  itemCount : storage.itemCount + items.length = table.storage.itemCount
  table : ∀ name, after.table name =
    if name = schema.tableName then .ok { table with storage } else store.table name

/-- The items of a list are removed one after another, if none of them is there twice. -/
theorem Holds.forM_destroyItem {items : List Item} : ∀ {store table},
    Holds schema Item.HoldsJson store → store.table schema.tableName = .ok table →
    items.Nodup → (∀ item ∈ items, item ∈ table.storage.allItems) →
    (items.forM (Connector.local.destroyItem schema)).run.run store = (.ok (), after) →
    ∃ storage, Removes schema items table store after storage := by
  induction items with
  | nil =>
    intro store table _ htable _ _ hforM
    obtain ⟨-, rfl⟩ := Operation.pure_eq_ok_iff.1 hforM
    refine ⟨table.storage, by simp, by simp, fun name => ?_⟩
    split
    case isTrue hname => rw [hname, htable]
    case isFalse => rfl
  | cons item rest ih =>
    intro store table h htable hnodup hmem hforM
    obtain ⟨hitem, hrest⟩ := List.nodup_cons.1 hnodup
    obtain ⟨hitemMem, hrestMem⟩ := List.forall_mem_cons.1 hmem
    obtain ⟨⟨⟩, middle, hdestroy, hforM⟩ := Operation.bind_eq_ok_iff.1 hforM
    obtain ⟨hsound, -, -⟩ := h.of_table htable
    obtain ⟨key, answer, -, hdelete⟩ := destroyItem_eq_ok hdestroy
    have hmiddle : Holds schema Item.HoldsJson middle := h.deleteItem rfl hdelete
    obtain ⟨own, hget, rfl⟩ := h.destroyItem htable hitemMem hdestroy
    have hname := h.isSound.name_of_table htable
    have hleft := hsound.allItems_delete hget
    have hcount : (table.storage.delete own).2.itemCount + 1 = table.storage.itemCount :=
      hsound.itemCount_delete (Prod.ext (TableStorage.delete_fst.trans hget) rfl)
    obtain ⟨storage, hremoved⟩ := ih hmiddle (by rw [MemoryStore.table_setTable, if_pos hname.symm])
      hrest (fun other hother => by
        rw [hleft]
        refine List.mem_filter.2 ⟨hrestMem other hother, ?_⟩
        simpa using fun heq : other = item => hitem (heq ▸ hother)) hforM
    refine ⟨storage, ?_, ?_, fun name => ?_⟩
    · rw [hremoved.allItems, hleft, List.filter_filter]
      refine List.filter_congr fun other _ => ?_
      simp [Bool.and_comm]
    · have hrestCount : storage.itemCount + rest.length =
          (table.storage.delete own).2.itemCount := hremoved.itemCount
      rw [List.length_cons]
      omega
    · rw [hremoved.table, MemoryStore.table_setTable, hname]
      split <;> rfl

/-- A removal of all records that a filter selects removes exactly the items that are read for it,
from all pages and each of them once, and answers their number. -/
theorem destroyAll_removes {start : MemoryStore} {steps : List (MemoryStore × Call)}
    (hprovisioned : schema.IsProvisioned start)
    (hempty : ∀ table, start.table schema.tableName = .ok table → table.storage.allItems = [])
    (hrun : CallRun schema start steps store) {filter : Filter} {n : Nat}
    (hdestroy : (Connector.local.destroyAll schema filter).run.run store = (.ok n, after)) :
    ∃ plan items turns table storage, schema.plan filter.whereOnly = .ok plan ∧
      (Connector.local.fetch plan schema.tableName none).run.run store = (.ok items, store) ∧
      PageRequest.Run (plan.pageRequest schema.tableName) store turns ∧
      (∀ turn ∈ turns, turn.store = store) ∧ items = PageRequest.returnedItems turns ∧
      items.Nodup ∧ n = items.length ∧ store.table schema.tableName = .ok table ∧
      (∀ item ∈ items, item ∈ table.storage.allItems) ∧
      Removes schema items table store after storage := by
  have hholds := hrun.holdsJson (holds_of_empty hprovisioned hempty)
  obtain ⟨plan, items, hplan, hfetch, hforM, rfl⟩ := destroyAll_eq_ok hdestroy
  obtain ⟨turns, run, hsame, hitems⟩ := exists_run_of_fetch hholds.isSound hfetch
  have hstart : (plan.pageRequest schema.tableName).startKey = [] := by cases plan <;> rfl
  have hname : (plan.pageRequest schema.tableName).table = schema.tableName := by
    cases plan <;> rfl
  obtain ⟨hnodup, table, htable, hmem⟩ := run.returnedItems_subset hholds.isSound hstart hsame
  rw [hname] at htable
  rw [← hitems] at hnodup hmem
  obtain ⟨storage, hremoved⟩ := hholds.forM_destroyItem htable hnodup hmem hforM
  exact ⟨plan, items, turns, table, storage, hplan, hfetch, run, hsame, hitems, hnodup, rfl, htable,
    hmem, hremoved⟩

def twoOrders : MemoryStore :=
  afterCall (createdOrder (.int 5 (by decide))) (creation (.int 6 inRange_six))

def laterOrders : Filter where
  conditions := [("customerId", .equals (.str "c1")),
    ("orderId", .operator .gt (.num (.int 5 (by decide))))]

/-- Of two orders the later one is removed. -/
theorem destroyAll_removes_order : ∃ after items table storage,
    (Connector.local.destroyAll orders laterOrders).run.run twoOrders = (.ok 1, after) ∧
    twoOrders.table orders.tableName = .ok table ∧ items.length = 1 ∧
    Removes orders items table twoOrders after storage ∧ storage.itemCount = 1 := by
  have hcreated : CallRun orders (orders.freshStore {})
      [(orders.freshStore {}, creation (.int 5 (by decide)))] (createdOrder (.int 5 (by decide))) :=
    CallRun.nil.afterCall (isProper_creation _) (by decide +kernel)
  have hrun : CallRun orders (orders.freshStore {})
      ([(orders.freshStore {}, creation (.int 5 (by decide)))] ++
        [(createdOrder (.int 5 (by decide)), creation (.int 6 (by decide)))]) twoOrders :=
    hcreated.afterCall (isProper_creation _) (by decide +kernel)
  have hone : ((Connector.local.destroyAll orders laterOrders).run.run twoOrders :
      Except Interruption Nat × MemoryStore).1 = .ok 1 := by decide +kernel
  rcases hdestroy : ((Connector.local.destroyAll orders laterOrders).run.run twoOrders :
      Except Interruption Nat × MemoryStore) with ⟨result, after⟩
  rw [hdestroy] at hone
  obtain rfl : result = .ok 1 := hone
  obtain ⟨plan, items, turns, table, storage, -, -, -, -, -, -, hn, htable, -, hremoved⟩ :=
    destroyAll_removes (orders.isProvisioned_freshStore {})
      (fun table => orders.allItems_freshStore) hrun hdestroy
  have htwo : (twoOrders.table orders.tableName).toOption.map (·.storage.itemCount) = some 2 := by
    decide +kernel
  simp only [htable, Except.toOption, Option.map_some, Option.some.injEq] at htwo
  have hcount := hremoved.itemCount
  exact ⟨after, items, table, storage, rfl, htable, hn.symm, hremoved, by omega⟩

end Connector

end KeyedStore
