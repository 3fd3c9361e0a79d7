import KeyedStore.Proofs.Attribute.RoundTrip
import KeyedStore.Proofs.Connector.Requests
import KeyedStore.Proofs.Key.Identifiers

/-!
# Created records

A record that was created is known by the identifier that was answered: it is found by it and
removed by it. A composite identifier must be split where it was joined, and a number in it must be an
integer of the signed 64-bit range: no other number is read back from an identifier.
-/
namespace KeyedStore

namespace Schema

variable {schema : Schema} {rangeKey : String} {written : Record} {id hash range stored : Json}
  {fresh : Option String} {data : Record}

/-- Whether the separator does not occur earlier in the identifier of a record than between hash and
range. -/
def SplitsAsJoined (schema : Schema) (record : Record) : Prop :=
  ∀ rangeKey hash range, schema.rangeKey = some rangeKey →
    record.get? schema.hashKey = some hash → record.get? rangeKey = some range →
    FirstOccursAt schema.separator.toList (schema.encodeId hash range).toList
      hash.keyText.toList.length

/-- Whether the numbers that a composite identifier is made of are integers of the signed 64-bit
range. -/
def JoinsIntegers (schema : Schema) (record : Record) : Prop :=
  ∀ rangeKey name n, schema.rangeKey = some rangeKey → name = schema.hashKey ∨ name = rangeKey →
    record.get? name = some (.num n) → n.int64?.isSome

/-- The item of a record with two different attributes has both of them. -/
theorem length_toItem_pair {name other : String} (h : name ≠ other) (value otherValue : Json) :
    (Record.toItem [(name, value), (other, otherValue)]).length = 2 := by
  have hne : compare name other ≠ .eq := fun heq => h (Std.LawfulEqCmp.eq_of_compare heq)
  cases hcompare : compare name other <;> simp_all [Record.toItem, OrderedMap.insert]

/-- The identifier of a prepared record names the key of its item, provided that the numbers in it
are integers of the signed 64-bit range. -/
theorem exists_keyForId {definition : ModelDefinition} (hproper : definition.IsProper)
    (hresolve : definition.resolve = .ok schema)
    (hprepare : schema.prepareWrite fresh data = (.ok id, written)) {own : PrimaryKey}
    (hown : (schema.readKey none).keyOf (Record.toItem written) = .ok own)
    (hsplits : schema.SplitsAsJoined written) (hintegers : schema.JoinsIntegers written) :
    ∃ key, schema.keyForId id = .ok key ∧
      MemoryStore.requestKey (schema.readKey none) (Record.toItem key) = .ok own := by
  obtain ⟨hnone, -⟩ | ⟨rangeKey, hjoins⟩ := hproper.schema_cases hresolve
  · obtain ⟨hread, -⟩ := KeySchema.keyOf_eq_ok_iff.1 hown
    obtain ⟨attr, hattr, htype, -⟩ := KeyAttribute.read_eq_ok_iff.1 hread
    have hget := (get?_toItem written schema.hashKey).symm.trans hattr
    obtain ⟨stored, hstored, rfl⟩ := Option.map_eq_some_iff.1 hget
    refine ⟨_, keyForId_of_rangeKey_none hnone hprepare hstored htype,
      MemoryStore.requestKey_eq ?_ ?_ hown⟩
    · simp [readKey, keySchema, hnone, KeySchema.attributes, Record.toItem, OrderedMap.insert]
    · intro name hname
      obtain rfl : name = schema.hashKey := by
        simpa [readKey, keySchema, hnone, KeySchema.names, KeySchema.attributes] using hname
      rw [get?_toItem, get?_toItem, hstored]
      simp [Record.get?]
  · obtain ⟨hash, range, rfl, hwritten⟩ := hjoins.prepareWrite_eq_ok hprepare
    have hfirst := hsplits rangeKey hash range hjoins.rangeKey hwritten.get?_hash
      hwritten.get?_range
    have hinteger : ∀ n, hash = .num n ∨ range = .num n → n.int64?.isSome := by
      rintro n (rfl | rfl)
      · exact hintegers rangeKey _ n hjoins.rangeKey (.inl rfl) hwritten.get?_hash
      · exact hintegers rangeKey _ n hjoins.rangeKey (.inr rfl) hwritten.get?_range
    refine ⟨_, hjoins.keyForId hwritten hfirst hinteger, MemoryStore.requestKey_eq ?_ ?_ hown⟩
    · rw [length_toItem_pair hjoins.hash_ne_range]
      simp [readKey, keySchema, hjoins.rangeKey, KeySchema.attributes]
    · intro name hname
      have hcases : name = schema.hashKey ∨ name = rangeKey := by
        simpa [readKey, keySchema, hjoins.rangeKey, KeySchema.names, KeySchema.attributes]
          using hname
      rw [get?_toItem, get?_toItem]
      rcases hcases with rfl | rfl
      · rw [hwritten.get?_hash]
        simp [Record.get?]
      · rw [hwritten.get?_range]
        simp [Record.get?, hjoins.hash_ne_range]

/-- If the identifier of a prepared record names a key, the numbers in it are integers of the signed
64-bit range. -/
theorem joinsIntegers_of_keyForId {definition : ModelDefinition} (hproper : definition.IsProper)
    (hresolve : definition.resolve = .ok schema)
    (hprepare : schema.prepareWrite fresh data = (.ok id, written))
    (hsplits : schema.SplitsAsJoined written) {key : Record}
    (hkey : schema.keyForId id = .ok key) : schema.JoinsIntegers written := by
  intro named name n hnamed hname hget
  obtain ⟨hnone, -⟩ | ⟨rangeKey, hjoins⟩ := hproper.schema_cases hresolve
  · cases hnone.symm.trans hnamed
  · cases hjoins.rangeKey.symm.trans hnamed
    obtain ⟨hash, range, rfl, hwritten⟩ := hjoins.prepareWrite_eq_ok hprepare
    have hfirst := hsplits named hash range hnamed hwritten.get?_hash hwritten.get?_range
    refine hjoins.isSome_int64? hwritten hfirst hkey ?_
    rcases hname with rfl | rfl
    · exact .inl (Option.some.inj (hwritten.get?_hash.symm.trans hget))
    · exact .inr (Option.some.inj (hwritten.get?_range.symm.trans hget))

end Schema

namespace Connector

variable {schema : Schema} {store final : MemoryStore} {id : Json} {record found : Record}

/-- Whether a record is known by an identifier: it is found by it, and removed by it without any
other one. -/
structure Knows (schema : Schema) (id : Json) (record : Record) (store : MemoryStore) : Prop where
  /-- The record that is found holds the same data. -/
  find : ∃ found, (Connector.local.find schema id).run.run store = (.ok (some found), store) ∧
    Json.Same (.obj found) (.obj record)
  exists? : (Connector.local.exists? schema id).run.run store = (.ok true, store)
  destroy : ∃ found final table remaining,
    (Connector.local.destroy schema id).run.run store = (.ok (some found), final) ∧
    Json.Same (.obj found) (.obj record) ∧
    store.table schema.tableName = .ok table ∧ final.table schema.tableName = .ok remaining ∧
    Record.toItem record ∈ table.storage.allItems ∧
    remaining.storage.allItems = table.storage.allItems.filter (· ≠ Record.toItem record) ∧
    ∀ name, name ≠ schema.tableName → final.table name = store.table name

/-- A record that stands under its key is known by an identifier that names the key. -/
theorem knows_of_keyForId {table : MemoryTable} {key : Record} {own : PrimaryKey}
    (hstore : store.IsSound) (htable : store.table schema.tableName = .ok table)
    (hkey : schema.keyForId id = .ok key)
    (hrequest : MemoryStore.requestKey table.storage.keySchema (Record.toItem key) = .ok own)
    (hget : table.storage.get? own = some (Record.toItem record)) :
    Knows schema id record store := by
  have hsound := hstore.storage_of_table htable
  have hname := hstore.name_of_table htable
  have hitem : store.getItem { table := schema.tableName, key := Record.toItem key } =
      .ok { item := some (Record.toItem record) } := by
    rw [MemoryStore.getItem_of_requestKey htable hrequest, hget]
  have hfind : (Connector.local.find schema id).run.run store =
      (.ok (some (Item.toRecord (Record.toItem record))), store) :=
    find_eq_ok_iff.2 ⟨rfl, key, _, hkey, hitem, rfl⟩
  have hsame := Record.same_toRecord_toItem record
  refine ⟨⟨_, hfind, hsame⟩, Operation.map_eq_ok_iff.2 ⟨_, hfind, rfl⟩, ?_⟩
  let remaining : MemoryTable := { table with storage := (table.storage.delete own).2 }
  have hdestroy : (Connector.local.destroy schema id).run.run store =
      (.ok (some (Item.toRecord (Record.toItem record))), store.setTable remaining) := by
    refine destroy_eq_ok_iff.2 ⟨key, _, hkey,
      MemoryStore.deleteItem_of_requestKey htable hrequest, ?_⟩
    rw [hget]
    rfl
  refine ⟨_, store.setTable remaining, table, remaining, hdestroy, hsame, htable, ?_,
    (hsound.get?_eq_some_iff.1 hget).1, hsound.allItems_delete hget, fun name hne => ?_⟩
  · exact MemoryStore.table_eq_ok_iff.2 (MemoryStore.get?_setTable.trans (if_pos hname.symm))
  · have hother : (store.setTable remaining).tables.get? name = store.tables.get? name :=
      MemoryStore.get?_setTable.trans (if_neg fun heq => hne (heq.trans hname))
    unfold MemoryStore.table
    rw [hother]

/-- A record that was created is known by its identifier exactly if the numbers that a composite
identifier is made of are integers of the signed 64-bit range. -/
theorem knows_of_create {properties settings : Json} (hdistinct : properties.HasDistinctKeys)
    {name : String} {definition : ModelDefinition}
    (hdefinition : ModelDefinition.ofJson name properties settings = .ok definition)
    {registry registered : Registry} (hdefine : registry.define definition =
      .ok (schema, registered))
    {before after : MemoryStore} (hprovisioned : schema.IsProvisioned before) {fresh : String}
    {data : Record}
    (hcreate : (Connector.local.create schema fresh data).run.run before = (.ok id, after))
    (hsplits : schema.SplitsAsJoined (schema.prepareWrite (some fresh) data).2) :
    Knows schema id (schema.prepareWrite (some fresh) data).2 after ↔
      schema.JoinsIntegers (schema.prepareWrite (some fresh) data).2 := by
  have hproper := ModelDefinition.isProper_of_ofJson hdistinct hdefinition
  have hresolve := Registry.resolve_of_define hdefine
  obtain ⟨written, hprepare, answer, hput⟩ := create_eq_ok_iff.1 hcreate
  rw [hprepare] at hsplits ⊢
  constructor
  · -- That the record is found says that its identifier was read as a key.
    intro hknows
    obtain ⟨found, hfind, -⟩ := hknows.find
    obtain ⟨-, key, answer, hkey, -⟩ := find_eq_ok_iff.1 hfind
    exact Schema.joinsIntegers_of_keyForId hproper hresolve hprepare hsplits hkey
  · intro hintegers
    obtain ⟨table, replaced, storage, htable, hstored, rfl⟩ := MemoryStore.putItem_eq_ok hput
    obtain ⟨found, hfound, hkeySchema⟩ := hprovisioned.exists_table
    obtain rfl : table = found := by simpa [htable] using hfound
    obtain ⟨own, hown, -, hschema, hget⟩ := TableStorage.put_eq_ok hstored
    rw [hkeySchema] at hown hschema
    obtain ⟨key, hkey, hrequest⟩ := Schema.exists_keyForId hproper hresolve hprepare hown hsplits
      hintegers
    have hsound := hprovisioned.isSound
    have hname := hsound.name_of_table htable
    have hstorage := (hsound.storage_of_table htable).put hstored
    have hafter : (before.setTable { table with storage }).table schema.tableName =
        .ok { table with storage } :=
      MemoryStore.table_eq_ok_iff.2 (MemoryStore.get?_setTable.trans (if_pos hname.symm))
    rw [← hschema] at hrequest
    exact knows_of_keyForId (hsound.setTable hstorage) hafter hkey hrequest
      (by simpa using hget own)

def order (number : Number) : Record := [("customerId", .str "c1"), ("orderId", .num number)]

theorem inRange_six : -Nat.pow 2 63 ≤ (6 : Int) ∧ (6 : Int) < Nat.pow 2 64 := by decide

theorem inRange_ten : -Nat.pow 2 63 ≤ (10 : Int) ∧ (10 : Int) < Nat.pow 2 64 := by decide

theorem splitsAsJoined_order {number : Number}
    (h : FirstOccursAt "--x--".toList (orders.encodeId (.str "c1") (.num number)).toList 2) :
    orders.SplitsAsJoined (orders.prepareWrite (some "") (order number)).2 := by
  rintro rangeKey hash range ⟨⟩ hhash hrange
  obtain rfl : .str "c1" = hash := Option.some.inj hhash
  obtain rfl : .num number = range := Option.some.inj hrange
  exact h

/-- An order with an integer for its number is known by its identifier. -/
theorem knows_order : ∃ definition after,
    ModelDefinition.ofJson "Order" orderProperties .null = .ok definition ∧
    Registry.define [] definition = .ok (orders, [("Order", orders)]) ∧
    (Connector.local.create orders "" (order (.int 5 (by decide)))).run.run
      (orders.freshStore {}) = (.ok (.str "c1--x--5"), after) ∧
    Knows orders (.str "c1--x--5") (orders.prepareWrite (some "") (order (.int 5 (by decide)))).2
      after := by
  obtain ⟨definition, hread, hdefine⟩ := exists_orders
  obtain ⟨after, hcreate⟩ : ∃ after, (Connector.local.create orders ""
      (order (.int 5 (by decide)))).run.run (orders.freshStore {}) =
        (.ok (.str "c1--x--5"), after) := ⟨_, rfl⟩
  refine ⟨definition, after, hread, hdefine, hcreate, ?_⟩
  refine (knows_of_create hasDistinctKeys_orderProperties hread hdefine
    (orders.isProvisioned_freshStore {}) hcreate (splitsAsJoined_order (by decide +kernel))).2 ?_
  rintro rangeKey name n ⟨⟩ (rfl | rfl) hnumber
  · cases hnumber
  · cases hnumber
    rfl

/-- The first integer beyond the signed 64-bit range. -/
def beyondInt64 : Number := .int 9223372036854775808 (by decide)

/-- An order with a larger integer for its number is created, but it is not known by its
identifier. -/
theorem not_knows_order : ∃ definition after,
    ModelDefinition.ofJson "Order" orderProperties .null = .ok definition ∧
    Registry.define [] definition = .ok (orders, [("Order", orders)]) ∧
    orders.IsProvisioned (orders.freshStore {}) ∧
    (Connector.local.create orders "" (order beyondInt64)).run.run (orders.freshStore {}) =
      (.ok (.str "c1--x--9223372036854775808"), after) ∧
    orders.SplitsAsJoined (orders.prepareWrite (some "") (order beyondInt64)).2 ∧
    ¬Knows orders (.str "c1--x--9223372036854775808")
      (orders.prepareWrite (some "") (order beyondInt64)).2 after := by
  obtain ⟨definition, hread, hdefine⟩ := exists_orders
  obtain ⟨after, hcreate⟩ : ∃ after,
      (Connector.local.create orders "" (order beyondInt64)).run.run (orders.freshStore {}) =
        (.ok (.str "c1--x--9223372036854775808"), after) := ⟨_, rfl⟩
  refine ⟨definition, after, hread, hdefine, orders.isProvisioned_freshStore {}, hcreate,
    splitsAsJoined_order (by decide +kernel), fun hknows => ?_⟩
  obtain ⟨found, hfind, -⟩ := hknows.find
  obtain ⟨-, key, answer, hkey, -⟩ := find_eq_ok_iff.1 hfind
  have hnone : (orders.keyForId (.str "c1--x--9223372036854775808")).toOption.isNone := by
    decide +kernel
  simp [hkey, Except.toOption] at hnone

end Connector

end KeyedStore
