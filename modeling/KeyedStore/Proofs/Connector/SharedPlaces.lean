import KeyedStore.Proofs.Connector.CompositeIdentifiers
import KeyedStore.Proofs.Json.NumberText
import KeyedStore.Proofs.Memory.Endings

/-!
# Places of created records

A record stands in its table at the place of its key, and numbers are told apart there by their
floating point values. So a record replaces an earlier one exactly if their keys have the same texts
and the same floating point values, even where their identifiers differ.
-/
namespace KeyedStore

open Std

/-- Whether two values of a key attribute have one place: the same text, or numbers with the same
floating point value. -/
def Json.SharesPlace : Json → Json → Prop
  | .str a, .str b => a = b
  | .num a, .num b => a.toBinary64 = b.toBinary64
  | _, _ => False

/-- Values of a key attribute are the same key if they have one place. -/
theorem Json.compare_eq_eq_iff {a b : Json} {name : String} {x y : KeyValue}
    (ha : KeyValue.ofAttribute name a.toAttribute = .ok x)
    (hb : KeyValue.ofAttribute name b.toAttribute = .ok y) :
    compare x y = .eq ↔ a.SharesPlace b := by
  have hnumeral (n : Number) : KeyValue.numeral (String.ofList n.text) = n.toBinary64 := by
    simp [KeyValue.numeral, Number.read?_text]
  cases a <;> cases ha <;> cases b <;> cases hb
  case num.refl.num.refl n m =>
    show (KeyValue.numeral _).totalCompare (KeyValue.numeral _) = .eq ↔ _
    rw [hnumeral, hnumeral, Binary64.totalCompare_eq_eq_iff]
    rfl
  case str.refl.str.refl s t =>
    show compare s t = .eq ↔ s = t
    exact Std.compare_eq_iff_eq
  case num.refl.str.refl => exact iff_of_false nofun id
  case str.refl.num.refl => exact iff_of_false nofun id

namespace Schema

variable {schema : Schema} {a b : Record}

/-- Whether two records have one place in the table: all attributes of their keys do. -/
def SharesPlace (schema : Schema) (a b : Record) : Prop :=
  ∀ name, schema.isKey name → ∃ x y, a.get? name = some x ∧ b.get? name = some y ∧ x.SharesPlace y

theorem compare_eq_eq_iff_of_read {attr : KeyAttribute} {x y : KeyValue}
    (ha : attr.read (Record.toItem a) = .ok x) (hb : attr.read (Record.toItem b) = .ok y) :
    compare x y = .eq ↔ ∃ v w, a.get? attr.name = some v ∧ b.get? attr.name = some w ∧
      v.SharesPlace w := by
  obtain ⟨stored, hstored, -, hx⟩ := KeyAttribute.read_eq_ok_iff.1 ha
  obtain ⟨stored', hstored', -, hy⟩ := KeyAttribute.read_eq_ok_iff.1 hb
  rw [get?_toItem] at hstored hstored'
  obtain ⟨v, hv, rfl⟩ := Option.map_eq_some_iff.1 hstored
  obtain ⟨w, hw, rfl⟩ := Option.map_eq_some_iff.1 hstored'
  rw [Json.compare_eq_eq_iff hx hy]
  constructor
  · exact fun h => ⟨v, w, hv, hw, h⟩
  · rintro ⟨v', w', hv', hw', h⟩
    obtain rfl : v = v' := Option.some.inj (hv.symm.trans hv')
    obtain rfl : w = w' := Option.some.inj (hw.symm.trans hw')
    exact h

/-- The keys of two records are the same if the records have one place. -/
theorem same_iff_sharesPlace {ka kb : PrimaryKey}
    (ha : (schema.readKey none).keyOf (Record.toItem a) = .ok ka)
    (hb : (schema.readKey none).keyOf (Record.toItem b) = .ok kb) :
    ka.same kb ↔ schema.SharesPlace a b := by
  obtain ⟨hpartition, hsort⟩ := KeySchema.keyOf_eq_ok_iff.1 ha
  obtain ⟨hpartition', hsort'⟩ := KeySchema.keyOf_eq_ok_iff.1 hb
  rw [PrimaryKey.same_iff, compare_eq_eq_iff_of_read hpartition hpartition']
  cases hrangeKey : schema.rangeKey with
  | none =>
    simp only [readKey, keySchema, hrangeKey, Option.map_none] at hsort hsort'
    have hplace : compare ka.place kb.place = .eq := by
      simp [PrimaryKey.place, hsort, hsort', ReflCmp.compare_self]
    simp [hplace, SharesPlace, isKey, hrangeKey, readKey, keySchema]
  | some rangeKey =>
    simp only [readKey, keySchema, hrangeKey, Option.map_some] at hsort hsort'
    obtain ⟨range, hread, hrange⟩ := hsort
    obtain ⟨range', hread', hrange'⟩ := hsort'
    have hplace := compare_eq_eq_iff_of_read hread hread'
    simp only [PrimaryKey.place, hrange, hrange', Option.getD_some, hplace]
    simp [SharesPlace, isKey, hrangeKey, readKey, keySchema]

/-- The record that a creation writes, given the fresh text that is at hand and the data. -/
def written (schema : Schema) (creation : String × Record) : Record :=
  (schema.prepareWrite (some creation.1) creation.2).2

/-- Whether no item of a storage has the place of a record. -/
def IsFree (schema : Schema) (storage : TableStorage) (record : Record) : Prop :=
  ∀ key, (schema.readKey none).keyOf (Record.toItem record) = .ok key → storage.get? key = none

/-- Whether the numbers of a key are integers of at most fifty-three bits, so that no digit is lost
in their floating point values. -/
def HasExactKey (schema : Schema) (record : Record) : Prop :=
  ∀ name n, schema.isKey name → record.get? name = some (.num n) →
    ∃ i inRange, n = .int i inRange ∧ i.natAbs < 2 ^ 53

/-- Exact keys in one place are the same. -/
theorem SharesPlace.get?_eq (h : schema.SharesPlace a b) (ha : schema.HasExactKey a)
    (hb : schema.HasExactKey b) {name : String} (hname : schema.isKey name) :
    a.get? name = b.get? name := by
  obtain ⟨x, y, hx, hy, hplace⟩ := h name hname
  rw [hx, hy]
  cases x <;> cases y <;> try contradiction
  case str.str s t => exact congrArg (some <| Json.str ·) hplace
  case num.num n m =>
    obtain ⟨i, hi, rfl, hsmall⟩ := ha name n hname hx
    obtain ⟨j, hj, rfl, hsmall'⟩ := hb name m hname hy
    obtain rfl : i = j := Binary64.ofInt_inj hsmall hsmall' hplace
    rfl

end Schema

namespace Connector

variable {schema : Schema} {store after : MemoryStore} {table : MemoryTable}
  {creations : List (String × Record)} {ids : List Json}

/-- Creates records one after another, and answers their identifiers. -/
def createAll (schema : Schema) (creations : List (String × Record)) :
    Operation MemoryStore (List Json) :=
  creations.mapM fun creation => Connector.local.create schema creation.1 creation.2

/-- What creating records one after another makes of a table. -/
structure Fills (schema : Schema) (creations : List (String × Record))
    (table filled : MemoryTable) : Prop where
  exists_keyOf : ∀ creation ∈ creations, ∃ key,
    (schema.readKey none).keyOf (Record.toItem (schema.written creation)) = .ok key
  itemCount_le : filled.storage.itemCount ≤ table.storage.itemCount + creations.length
  /-- All records are there beside the items from before exactly if no two of them share a place and
  none of them has the place of an item from before. -/
  itemCount_eq_iff : filled.storage.itemCount = table.storage.itemCount + creations.length ↔
    (creations.Pairwise fun a b => ¬schema.SharesPlace (schema.written a) (schema.written b)) ∧
    ∀ creation ∈ creations, schema.IsFree table.storage (schema.written creation)
  /-- The records are stored in their order. -/
  storage : filled.storage = table.storage.changeAll
    (creations.map fun creation => .put (Record.toItem (schema.written creation)))

/-- After a record was stored, a place is free if it was so before and is not that of the record. -/
theorem isFree_put {storage : TableStorage} {replaced : Option Item} {record other : Record}
    {key : PrimaryKey} (hschema : table.storage.keySchema = schema.readKey none)
    (hput : table.storage.put (Record.toItem record) = .ok (replaced, storage))
    (hkey : (schema.readKey none).keyOf (Record.toItem other) = .ok key) :
    schema.IsFree storage other ↔
      ¬schema.SharesPlace record other ∧ schema.IsFree table.storage other := by
  obtain ⟨own, hown, -, -, hget⟩ := TableStorage.put_eq_ok hput
  have hsame : key.same own ↔ schema.SharesPlace record other :=
    PrimaryKey.same_comm ▸ Schema.same_iff_sharesPlace (hschema ▸ hown) hkey
  simp only [Schema.IsFree, hkey, Except.ok.injEq, forall_eq', hget, ← hsame]
  by_cases h : key.same own <;> simp [h]

/-- The step: one record is created before the others. -/
theorem Fills.cons {creation : String × Record} {filled : MemoryTable} {storage : TableStorage}
    {replaced : Option Item} (h : Fills schema creations { table with storage } filled)
    (hschema : table.storage.keySchema = schema.readKey none)
    (hput : table.storage.put (Record.toItem (schema.written creation)) =
      .ok (replaced, storage)) : Fills schema (creation :: creations) table filled := by
  obtain ⟨own, hown, rfl, -, -⟩ := TableStorage.put_eq_ok hput
  rw [hschema] at hown
  have hcount := TableStorage.itemCount_put hput
  have hle : filled.storage.itemCount ≤ storage.itemCount + creations.length := h.itemCount_le
  have hrest : filled.storage.itemCount = storage.itemCount + creations.length ↔ _ :=
    h.itemCount_eq_iff
  have hchange : (table.storage.change (.put (Record.toItem (schema.written creation)))).2 =
      storage := by simp [TableStorage.change, hput]
  refine ⟨List.forall_mem_cons.2 ⟨⟨own, hown⟩, h.exists_keyOf⟩, ?_, ?_, ?_⟩
  · rw [List.length_cons]
    split at hcount <;> omega
  · rw [List.length_cons, List.pairwise_cons, List.forall_mem_cons]
    have hfree : schema.IsFree table.storage (schema.written creation) ↔
        table.storage.get? own = none := by
      simp [Schema.IsFree, hown]
    rw [hfree]
    cases hstood : table.storage.get? own with
    | some item =>
      -- The record takes the place of an item, so there is one less than there are creations.
      simp only [hstood, Option.isNone_some, Bool.false_eq_true, if_false] at hcount
      exact iff_of_false (by omega) (by simp)
    | none =>
      simp only [hstood, Option.isNone_none, if_true] at hcount
      have hothers : (∀ other ∈ creations, schema.IsFree storage (schema.written other)) ↔
          ∀ other ∈ creations, ¬schema.SharesPlace (schema.written creation)
            (schema.written other) ∧ schema.IsFree table.storage (schema.written other) := by
        refine forall₂_congr fun other hother => ?_
        obtain ⟨key, hkey⟩ := h.exists_keyOf other hother
        exact isFree_put hschema hput hkey
      rw [show table.storage.itemCount + (creations.length + 1) =
        storage.itemCount + creations.length by omega, hrest, hothers, forall₂_and]
      tauto
  · rw [h.storage, ← hchange]
    rfl

/-- The run: creating records one after another fills the table of their schema. -/
theorem Holds.createAll {property : Item → Prop} (hproperty : ∀ item, property item) :
    ∀ {store table ids}, Holds schema property store →
    store.table schema.tableName = .ok table →
    (createAll schema creations).run.run store = (.ok ids, after) →
    ∃ filled, after.table schema.tableName = .ok filled ∧ Holds schema property after ∧
      after.config = store.config ∧
      ids.map .ok = creations.map (fun creation =>
        (schema.prepareWrite (some creation.1) creation.2).1) ∧
      Fills schema creations table filled := by
  induction creations with
  | nil =>
    intro store table ids h htable hcreate
    obtain ⟨rfl, rfl⟩ := Operation.pure_eq_ok_iff.1 hcreate
    exact ⟨table, htable, h, rfl, rfl, by simp, by simp, by simp, rfl⟩
  | cons creation rest ih =>
    intro store table ids h htable hcreate
    rw [Connector.createAll, List.mapM_cons] at hcreate
    obtain ⟨id, middle, hfirst, hcreate⟩ := Operation.bind_eq_ok_iff.1 hcreate
    obtain ⟨others, last, hrest, hpure⟩ := Operation.bind_eq_ok_iff.1 hcreate
    obtain ⟨rfl, rfl⟩ := Operation.pure_eq_ok_iff.1 hpure
    obtain ⟨written, hprepare, answer, hputItem⟩ := create_eq_ok_iff.1 hfirst
    have hmiddle := h.putItem (hproperty _) hputItem
    obtain ⟨found, replaced, storage, hfound, hput, rfl⟩ := MemoryStore.putItem_eq_ok hputItem
    obtain rfl : table = found := Except.ok.inj (htable.symm.trans hfound)
    have hwritten : schema.written creation = written := by rw [Schema.written, hprepare]
    obtain ⟨-, hschema, -⟩ := h.of_table htable
    have hname := h.isSound.name_of_table htable
    obtain ⟨filled, hfilled, hafter, hconfig, hids, hfills⟩ :=
      ih hmiddle (by rw [MemoryStore.table_setTable, if_pos hname.symm]) hrest
    refine ⟨filled, hfilled, hafter, hconfig, ?_, hfills.cons hschema (hwritten ▸ hput)⟩
    rw [List.map_cons, List.map_cons, hids, hprepare]

section Count

open PageRequest

/-- The empty filter counts all items of the table. -/
theorem count_eq_length (hsize : 1 ≤ store.config.pageSize) (hstore : store.IsSound)
    (htable : store.table schema.tableName = .ok table) :
    (Connector.local.count schema {}).run.run store =
      (.ok table.storage.allItems.length, store) := by
  obtain ⟨turns, run, hsame, hperm⟩ := exists_run_scan hsize hstore htable
  let plan : Plan := .scan {}
  have hplan : schema.plan {} = .ok plan := rfl
  have hfetch : (Connector.local.fetch plan schema.tableName none).run.run store = _ :=
    fetch_of_run hsize hstore run hsame
  have hall : (Connector.local.all schema {}).run.run store =
      (.ok (({} : Filter).shape schema ((returnedItems turns).map Item.toRecord)), store) :=
    Operation.bind_eq_ok_iff.2 ⟨plan, store,
      Operation.ofExcept_eq_ok_iff.2 ⟨mapError_eq_ok_iff.2 hplan, rfl⟩,
      Operation.bind_eq_ok_iff.2 ⟨_, store, hfetch, rfl⟩⟩
  have hlength : (({} : Filter).shape schema ((returnedItems turns).map Item.toRecord)).length =
      table.storage.allItems.length := by
    unfold Filter.shape sortRecords
    rw [(stableSort_perm _ _).length_eq, window, List.drop_zero, List.length_map, hperm.length_eq]
  exact Operation.map_eq_ok_iff.2 ⟨_, hall, hlength⟩

end Count

/-- Records of different composite identifiers whose keys are exact have different places. -/
theorem pairwise_not_sharesPlace {rangeKey : String} (hjoins : schema.JoinsKeys rangeKey)
    (hids : ids.map .ok = creations.map (fun creation =>
      (schema.prepareWrite (some creation.1) creation.2).1))
    (hnodup : ids.Nodup) (hexact : ∀ creation ∈ creations,
      schema.HasExactKey (schema.written creation)) :
    creations.Pairwise fun a b => ¬schema.SharesPlace (schema.written a) (schema.written b) := by
  have hidentified : ∀ creation ∈ creations, ∃ text,
      (schema.prepareWrite (some creation.1) creation.2).1 = .ok (.str text) ∧
      schema.identifier? (schema.written creation) = some text := by
    intro creation hmem
    obtain ⟨id, -, hid⟩ : ∃ id ∈ ids, .ok id =
        (schema.prepareWrite (some creation.1) creation.2).1 := by
      have hmem' := hids.symm ▸ List.mem_map_of_mem hmem
      simpa using hmem'
    rcases hprepare : schema.prepareWrite (some creation.1) creation.2 with ⟨answered, written⟩
    rw [hprepare] at hid
    obtain rfl : answered = .ok id := hid.symm
    obtain ⟨hash, range, rfl, hwritten⟩ := hjoins.prepareWrite_eq_ok hprepare
    refine ⟨_, rfl, ?_⟩
    rw [Schema.written, hprepare]
    exact hjoins.identifier?_eq_some hwritten.get?_hash hwritten.get?_range
  have hdifferent : (creations.map fun creation =>
      (schema.prepareWrite (some creation.1) creation.2).1).Nodup :=
    hids ▸ hnodup.map fun _ _ => Except.ok.inj
  refine (List.pairwise_map.1 hdifferent).imp_of_mem fun {a b} ha hb hne hplace => hne ?_
  obtain ⟨text, hid, htext⟩ := hidentified a ha
  obtain ⟨text', hid', htext'⟩ := hidentified b hb
  have hkey {name : String} (hname : schema.isKey name) :=
    hplace.get?_eq (hexact a ha) (hexact b hb) hname
  have hhash := hkey (show schema.isKey schema.hashKey by simp [Schema.isKey])
  have hrange := hkey (show schema.isKey rangeKey by simp [Schema.isKey, hjoins.rangeKey])
  have hsame : schema.identifier? (schema.written a) = schema.identifier? (schema.written b) := by
    simp only [Schema.identifier?, hjoins.rangeKey, hhash, Option.bind_eq_bind, Option.bind_some,
      hrange]
  rw [hid, hid', Option.some.inj (htext.symm.trans (hsame.trans htext'))]

/-- Records that are created one after another all stay in the table exactly if no two of them share
a place there. Where numbers of keys are integers of at most fifty-three bits, records of different
composite identifiers share none; larger ones may have one floating point value. -/
theorem count_createAll {properties settings : Json} (hdistinct : properties.HasDistinctKeys)
    {name : String} {definition : ModelDefinition}
    (hdefinition : ModelDefinition.ofJson name properties settings = .ok definition)
    {registry registered : Registry} (hdefine : registry.define definition =
      .ok (schema, registered))
    {start : MemoryStore} (hprovisioned : schema.IsProvisioned start)
    (hempty : ∀ table, start.table schema.tableName = .ok table → table.storage.allItems = [])
    (hcreate : (createAll schema creations).run.run start = (.ok ids, store)) :
    ∃ table n, store.table schema.tableName = .ok table ∧ table.storage.itemCount = n ∧
      (1 ≤ start.config.pageSize →
        (Connector.local.count schema {}).run.run store = (.ok n, store)) ∧
      n ≤ creations.length ∧
      (n = creations.length ↔ creations.Pairwise fun a b =>
        ¬schema.SharesPlace (schema.written a) (schema.written b)) ∧
      (schema.rangeKey.isSome → ids.Nodup →
        (∀ creation ∈ creations, schema.HasExactKey (schema.written creation)) →
        n = creations.length) := by
  have hproper := ModelDefinition.isProper_of_ofJson hdistinct hdefinition
  have hresolve := Registry.resolve_of_define hdefine
  have hholds : Holds schema (fun _ => True) start := holds_of_empty hprovisioned hempty
  obtain ⟨table, htable, -⟩ := hholds.exists_table
  obtain ⟨hsound, -⟩ := hholds.of_table htable
  obtain ⟨filled, hfilled, hafter, hconfig, hids, hfills⟩ :=
    hholds.createAll (fun _ => trivial) htable hcreate
  obtain ⟨hfilledSound, -⟩ := hafter.of_table hfilled
  have hnone : table.storage.itemCount = 0 := by rw [hsound.itemCount, hempty table htable]; rfl
  have hfree : ∀ record, schema.IsFree table.storage record :=
    fun record key _ => hsound.get?_of_allItems_eq_nil (hempty table htable) key
  have hle := hfills.itemCount_le
  have hiff := hfills.itemCount_eq_iff
  rw [hnone, Nat.zero_add, hfilledSound.itemCount] at hle hiff
  have hcount : filled.storage.allItems.length = creations.length ↔
      creations.Pairwise fun a b => ¬schema.SharesPlace (schema.written a) (schema.written b) :=
    hiff.trans (and_iff_left fun creation _ => hfree _)
  refine ⟨filled, _, hfilled, hfilledSound.itemCount, fun hsize =>
    count_eq_length (hconfig ▸ hsize) hafter.isSound hfilled, hle, hcount,
    fun hcomposite hnodup hexact => hcount.2 ?_⟩
  obtain ⟨hsimple, -⟩ | ⟨rangeKey, hjoins⟩ := hproper.schema_cases hresolve
  · simp [hsimple] at hcomposite
  · exact pairwise_not_sharesPlace hjoins hids hnodup hexact

theorem hasExactKey_order {i : Int} {inRange : -Nat.pow 2 63 ≤ i ∧ i < Nat.pow 2 64}
    (h : i.natAbs < 2 ^ 53) : orders.HasExactKey (orders.written ("", order (.int i inRange))) := by
  intro name n hname hget
  have hcases : name = "customerId" ∨ "orderId" = name := by
    simpa [Schema.isKey, orders] using hname
  rcases hcases with rfl | rfl
  · cases hget
  · cases hget
    exact ⟨i, inRange, rfl, h⟩

/-- Of two orders with numbers of few digits both stay. -/
theorem count_createAll_orders : ∃ store,
    (createAll orders [("", order (.int 5 (by decide))), ("", order (.int 6 (by decide)))]).run.run
      (orders.freshStore {}) = (.ok [.str "c1--x--5", .str "c1--x--6"], store) ∧
    (Connector.local.count orders {}).run.run store = (.ok 2, store) := by
  obtain ⟨store, hcreate⟩ : ∃ store, (createAll orders [("", order (.int 5 (by decide))),
      ("", order (.int 6 (by decide)))]).run.run (orders.freshStore {}) =
        (.ok [.str "c1--x--5", .str "c1--x--6"], store) := ⟨_, rfl⟩
  obtain ⟨definition, hread, hdefine⟩ := exists_orders
  obtain ⟨-, n, -, -, hcount, -, -, hall⟩ := count_createAll hasDistinctKeys_orderProperties hread
    hdefine (orders.isProvisioned_freshStore {}) (fun table => orders.allItems_freshStore) hcreate
  obtain rfl : n = 2 := hall rfl (by simp) <| by
    simp only [List.forall_mem_cons]
    exact ⟨hasExactKey_order (by decide), hasExactKey_order (by decide), List.forall_mem_nil _⟩
  exact ⟨store, hcreate, hcount (by decide)⟩

/-- The first integer that has no floating point value of its own, after the one that has it. -/
def roundedPair : List (String × Record) :=
  [("", order (.int 9007199254740992 (by decide))), ("", order (.int 9007199254740993 (by decide)))]

/-- Two orders with different identifiers, of which the second one replaces the first. -/
theorem count_roundedPair : ∃ definition store after,
    ModelDefinition.ofJson "Order" orderProperties .null = .ok definition ∧
    Registry.define [] definition = .ok (orders, [("Order", orders)]) ∧
    orders.IsProvisioned (orders.freshStore {}) ∧
    (createAll orders roundedPair).run.run (orders.freshStore {}) =
      (.ok [.str "c1--x--9007199254740992", .str "c1--x--9007199254740993"], store) ∧
    (Connector.local.count orders {}).run.run store = (.ok 1, after) ∧ roundedPair.length = 2 := by
  obtain ⟨definition, hread, hdefine⟩ := exists_orders
  let store := ((createAll orders roundedPair).run.run (orders.freshStore {}) :
    Except Interruption (List Json) × MemoryStore).2
  have hone : ((Connector.local.count orders {}).run.run store :
      Except Interruption Nat × MemoryStore).1 = .ok 1 := by decide +kernel
  rcases hcount : ((Connector.local.count orders {}).run.run store :
      Except Interruption Nat × MemoryStore) with ⟨result, after⟩
  rw [hcount] at hone
  obtain rfl : result = .ok 1 := hone
  exact ⟨definition, store, after, hread, hdefine, orders.isProvisioned_freshStore {}, rfl, hcount,
    rfl⟩

end Connector

end KeyedStore
