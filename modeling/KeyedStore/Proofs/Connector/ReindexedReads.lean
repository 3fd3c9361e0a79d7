import KeyedStore.Proofs.Connector.IndexedRead
import KeyedStore.Proofs.Connector.SharedPlaces
import KeyedStore.Proofs.Model.Reindexing
import KeyedStore.Proofs.Plan.KeyedConditions

/-!
# Reads of models that differ in their indexes

The indexes of a model decide where the records that a filter selects are read from. An index has
only the records with all of its key attributes. So models that differ in their indexes find the
same records exactly if neither finds one that is not where the other one reads.
-/
namespace KeyedStore

open PageRequest

/-- What a plan reads for a filter: the stored items, each of them once, that have the key
attributes of the table or index that the plan is for, and for which all conditions hold as the plan
uses them. -/
structure Plan.Reads (plan : Plan) (schema : Schema) (filter : Filter) (table : MemoryTable)
    (keys : KeySchema) (items : List Item) : Prop where
  keySchemaFor : table.keySchemaFor plan.selection.index = .ok keys
  nodup : items.Nodup
  mem_iff : ∀ item, item ∈ items ↔ item ∈ table.storage.allItems ∧
    (∀ name ∈ keys.names, item.contains name) ∧
    ∀ c ∈ filter.conditions, plan.selection.Holds schema item c
  /-- Keys are compared as other values are, where the value of the item is comparable. -/
  keyHolds_iff : ∀ item, ∀ c ∈ filter.conditions, plan.selection.IsKeyedBy c.1 →
    c.2.restriction.ComparesKeys schema c.1 item →
    (c.2.restriction.KeyHolds schema c.1 item ↔ c.2.verdict schema item c.1 = .ok true)

/-- Whether a record has all attributes of a key. -/
def KeySchema.IsIn (schema : KeySchema) (record : Record) : Prop :=
  ∀ name ∈ schema.names, (record.get? name).isSome

theorem KeySchema.isIn_toRecord {schema : KeySchema} {item : Item} :
    schema.IsIn (Item.toRecord item) ↔ ∀ name ∈ schema.names, item.contains name := by
  refine forall₂_congr fun name _ => ?_
  rw [get?_toRecord, Option.isSome_map]
  rfl

/-- Whether the values of an item are comparable where only one of two plans compares them in its
key condition. -/
def Plan.ComparesAlike (plan other : Plan) (schema : Schema) (filter : Filter) (item : Item) :
    Prop :=
  ∀ c ∈ filter.conditions, ¬(plan.selection.IsKeyedBy c.1 ↔ other.selection.IsKeyedBy c.1) →
    c.2.restriction.ComparesKeys schema c.1 item

/-- Whether a condition compares an attribute with one value. -/
def Condition.IsSingle (condition : Condition) : Prop :=
  (∃ value, condition = .equals value) ∨ ∃ op value, condition = .operator op value

theorem Condition.IsSingle.ne_list {condition : Condition} (h : condition.IsSingle)
    (values : List Json) : condition ≠ .list values := by
  rintro rfl
  rcases h with ⟨value, h⟩ | ⟨op, value, h⟩ <;> cases h

/-- A scan compares nothing in a key condition. -/
theorem not_isKeyedBy_of_compileScan {schema : Schema} {filter : Filter} {selection : Selection}
    (h : schema.compileScan filter = .ok selection) (name : String) :
    selection.index = none ∧ ¬selection.IsKeyedBy name := by
  obtain ⟨fragments, -, h⟩ := bind_eq_ok_iff.1 h
  cases h
  refine ⟨rfl, ?_⟩
  rintro ⟨e, hmem, -⟩
  cases hmem

namespace Connector

variable {schema schema' : Schema} {filter : Filter} {plan plan' : Plan}
  {property : Item → Prop} {store store' after after' : MemoryStore}
  {table table' : MemoryTable} {keys keys' : KeySchema} {items items' : List Item}
  {records records' : List Record} {creations : List (String × Record)}

/-- The pages of a plan hold what the plan reads. -/
theorem reads_of_run {turns : List Turn} (hsize : 1 ≤ store.config.pageSize)
    (hstore : store.IsSound) (hnodup : (filter.conditions.map (·.1)).Nodup)
    (hlist : ∀ c ∈ filter.conditions, ∀ values, c.2 ≠ .list values)
    (hplan : schema.plan filter = .ok plan)
    (run : Run (plan.pageRequest schema.tableName) store turns)
    (hsame : ∀ turn ∈ turns, turn.store = store) :
    ∃ table keys, store.table schema.tableName = .ok table ∧
      plan.Reads schema filter table keys (returnedItems turns) := by
  obtain ⟨table, access, htable, haccess, -, hcovering⟩ := run.exists_access hsize hstore
  cases plan with
  | query selection =>
    obtain ⟨hitems, hmem⟩ :=
      hcovering.mem_returnedItems_iff hstore htable haccess rfl hsame
    obtain ⟨hquery, -⟩ := Schema.compileQuery_of_plan hplan
    obtain ⟨keys, hkeys, hresolved, hmatching⟩ :=
      Schema.matching_iff_terms_of_compileQuery hnodup hlist hquery haccess
    have hrenders := Schema.rendersAll_of_compileQuery hnodup hlist hquery
    refine ⟨table, keys, htable, hkeys, hitems, fun item => ?_, fun item c hc hkeyed =>
      hrenders.keyHolds_iff_verdict hnodup hresolved hc hkeyed⟩
    rw [hmem, hmatching, hrenders.terms_iff hnodup hresolved]
    rfl
  | scan selection =>
    obtain ⟨hitems, hmem⟩ :=
      hcovering.mem_returnedItems_iff hstore htable haccess rfl hsame
    have hscan := Schema.compileScan_of_plan hplan
    have hsound := hstore.storage_of_table htable
    have hkeyed (name : String) := (not_isKeyedBy_of_compileScan hscan name).2
    have hindex : selection.index = none := (not_isKeyedBy_of_compileScan hscan "").1
    refine ⟨table, table.storage.keySchema, htable, ?_, hitems, fun item => ?_,
      fun item c hc h => absurd h (hkeyed c.1)⟩
    · show table.keySchemaFor selection.index = _
      rw [hindex]
      rfl
    · rw [hmem, Schema.matching_iff_of_compileScan hscan haccess, Filter.verdict_eq_true_iff]
      refine and_congr_right fun hstored => ?_
      -- A scan is from the table itself, and every item has the key of its table.
      have hnames : ∀ name ∈ table.storage.keySchema.names, item.contains name := by
        intro name hname
        obtain ⟨own, hown⟩ := hsound.exists_keyOf hstored
        obtain ⟨value, -, hvalue, -⟩ := KeySchema.exists_ofAttribute_of_keyOf hown hname
        simp [OrderedMap.contains, hvalue]
      rw [and_iff_right hnames]
      exact forall₂_congr fun c _ =>
        ⟨fun h => ⟨fun hkey => absurd hkey (hkeyed c.1), fun _ => h⟩, fun h => h.2 (hkeyed c.1)⟩

/-- What is fetched is what the plan reads. -/
theorem reads_of_fetch (hsize : 1 ≤ store.config.pageSize) (hholds : Holds schema property store)
    (hnodup : (filter.conditions.map (·.1)).Nodup)
    (hlist : ∀ c ∈ filter.conditions, ∀ values, c.2 ≠ .list values)
    (hplan : schema.plan filter = .ok plan)
    (hfetch : (Connector.local.fetch plan schema.tableName none).run.run store =
      (.ok items, after)) :
    ∃ table keys, store.table schema.tableName = .ok table ∧
      plan.Reads schema filter table keys items := by
  obtain ⟨turns, run, hsame, rfl⟩ := exists_run_of_fetch hholds.isSound hfetch
  exact reads_of_run hsize hholds.isSound hnodup hlist hplan run hsame

/-- What reading all records that a filter selects comes down to, where no window is asked for. -/
theorem all_eq_ok (hlimit : filter.limit = none) (hoffset : filter.offset = 0)
    (hmin : filter.minResults = none)
    (h : (Connector.local.all schema filter).run.run store = (.ok records, after)) :
    ∃ plan items, schema.plan filter = .ok plan ∧
      (Connector.local.fetch plan schema.tableName none).run.run store = (.ok items, store) ∧
      records.Perm (items.map Item.toRecord) := by
  obtain ⟨plan, _, hplanned, hfetched⟩ := Operation.bind_eq_ok_iff.1 h
  obtain ⟨hplan, rfl⟩ := Operation.ofExcept_eq_ok_iff.1 hplanned
  obtain ⟨items, middle, hfetch, hshaped⟩ := Operation.bind_eq_ok_iff.1 hfetched
  have hsame := snd_fetch plan schema.tableName filter.minResults store
  rw [hfetch] at hsame
  obtain rfl : middle = store := hsame
  have hrecords : records = filter.shape schema (items.map Item.toRecord) := by
    cases hrelations : filter.relations with
    | none =>
      simp only [hrelations] at hshaped
      exact (Operation.pure_eq_ok_iff.1 hshaped).1.symm
    | some relations =>
      simp only [hrelations] at hshaped
      exact (Operation.pure_eq_ok_iff.1 hshaped).1.symm
  refine ⟨plan, items, mapError_eq_ok_iff.1 hplan, hmin ▸ hfetch, ?_⟩
  rw [hrecords, Filter.shape, sortRecords, hlimit, hoffset]
  exact stableSort_perm _ _

/-- Whether a store is what creating records one after another has made of an empty table. -/
def HoldsCreated (schema : Schema) (creations : List (String × Record)) (store : MemoryStore) :
    Prop :=
  ∃ start ids, schema.IsProvisioned start ∧ 1 ≤ start.config.pageSize ∧
    (∀ table, start.table schema.tableName = .ok table → table.storage.allItems = []) ∧
    (createAll schema creations).run.run start = (.ok ids, store)

/-- The records that were created stand in the table, each of them until another one with its key
was created. -/
theorem HoldsCreated.exists_table (h : HoldsCreated schema creations store) :
    1 ≤ store.config.pageSize ∧ Holds schema (fun _ => True) store ∧
      ∃ table, store.table schema.tableName = .ok table ∧ table.storage.get? =
        (TableStorage.changeAll { keySchema := schema.readKey none }
          (creations.map fun creation => .put (Record.toItem (schema.written creation)))).get? := by
  obtain ⟨start, ids, hprovisioned, hsize, hempty, hcreate⟩ := h
  have hholds : Holds schema (fun _ => True) start := holds_of_empty hprovisioned hempty
  obtain ⟨empty, htable, hschema, -⟩ := hholds.exists_table
  obtain ⟨table, hfilled, hafter, hconfig, -, hfills⟩ :=
    hholds.createAll (fun _ => trivial) htable hcreate
  refine ⟨hconfig ▸ hsize, hafter, table, hfilled, ?_⟩
  rw [hfills.storage]
  obtain ⟨hsound, -⟩ := hholds.of_table htable
  exact TableStorage.get?_changeAll_congr hschema
    (funext (hsound.get?_of_allItems_eq_nil (hempty empty htable)))

/-- Models that differ in their indexes store the same items. -/
theorem HoldsCreated.allItems_eq (h : HoldsCreated schema creations store)
    (h' : HoldsCreated schema' creations store')
    (hdiffer : schema.withoutIndexes = schema'.withoutIndexes)
    (htable : store.table schema.tableName = .ok table)
    (htable' : store'.table schema'.tableName = .ok table') :
    table.storage.allItems = table'.storage.allItems := by
  obtain ⟨-, hholds, found, hfound, hget⟩ := h.exists_table
  obtain ⟨-, hholds', found', hfound', hget'⟩ := h'.exists_table
  obtain rfl : table = found := Except.ok.inj (htable.symm.trans hfound)
  obtain rfl : table' = found' := Except.ok.inj (htable'.symm.trans hfound')
  obtain ⟨hsound, hschema, -⟩ := hholds.of_table htable
  obtain ⟨hsound', hschema', -⟩ := hholds'.of_table htable'
  have hkeys := Schema.readKey_withoutIndexes hdiffer
  have hwritten : schema.written = schema'.written := by
    funext creation
    rw [Schema.written, Schema.written, Schema.prepareWrite_withoutIndexes hdiffer]
  refine hsound.allItems_congr hsound' (by rw [hschema, hschema', hkeys]) ?_
  rw [hget, hget', hkeys, hwritten]

/-- What a condition finds does not depend on the plan, where the values that only one of the plans
compares in its key condition are comparable. -/
theorem holds_iff_holds (hreads : plan.Reads schema filter table keys items)
    (hreads' : plan'.Reads schema' filter table' keys' items') {item : Item}
    (halike : plan.ComparesAlike plan' schema filter item) {c : String × Condition}
    (hc : c ∈ filter.conditions)
    (hbound : ∀ json, schema.bound c.1 json = schema'.bound c.1 json) :
    plan.selection.Holds schema item c ↔ plan'.selection.Holds schema' item c := by
  have hkey : c.2.restriction.KeyHolds schema c.1 item ↔
      c.2.restriction.KeyHolds schema' c.1 item := Restriction.keyHolds_congr hbound
  have hcomparable : c.2.restriction.ComparesKeys schema c.1 item ↔
      c.2.restriction.ComparesKeys schema' c.1 item := Restriction.comparesKeys_congr hbound
  have hverdict : c.2.verdict schema item c.1 = c.2.verdict schema' item c.1 :=
    Condition.verdict_congr hbound c.2
  unfold Selection.Holds
  -- Where one plan compares keys and the other one values, the values are comparable.
  by_cases hkeyed : plan.selection.IsKeyedBy c.1
  · by_cases hkeyed' : plan'.selection.IsKeyedBy c.1
    · simp [hkeyed, hkeyed', hkey]
    · have hdata := halike c hc (by simp [hkeyed, hkeyed'])
      simp [hkeyed, hkeyed', hreads.keyHolds_iff item c hc hkeyed hdata, hverdict]
  · by_cases hkeyed' : plan'.selection.IsKeyedBy c.1
    · have hdata := hcomparable.1 (halike c hc (by simp [hkeyed, hkeyed']))
      simp [hkeyed, hkeyed', hreads'.keyHolds_iff item c hc hkeyed' hdata, hverdict]
    · simp [hkeyed, hkeyed', hverdict]

/-- Where two plans select the same items but for the attributes that they must have, they return
the same records exactly if the records of each have the attributes that the other one asks for. -/
theorem perm_iff_of_reads (hreads : plan.Reads schema filter table keys items)
    (hreads' : plan'.Reads schema' filter table' keys' items')
    (hstored : table.storage.allItems = table'.storage.allItems)
    (hholds : ∀ item ∈ table.storage.allItems, ∀ c ∈ filter.conditions,
      (plan.selection.Holds schema item c ↔ plan'.selection.Holds schema' item c)) :
    (items.map Item.toRecord).Perm (items'.map Item.toRecord) ↔
      (∀ record ∈ items.map Item.toRecord, keys'.IsIn record) ∧
      ∀ record ∈ items'.map Item.toRecord, keys.IsIn record := by
  have hown : ∀ record ∈ items.map Item.toRecord, keys.IsIn record :=
    List.forall_mem_map.2 fun item hitem =>
      KeySchema.isIn_toRecord.2 ((hreads.mem_iff item).1 hitem).2.1
  have hown' : ∀ record ∈ items'.map Item.toRecord, keys'.IsIn record :=
    List.forall_mem_map.2 fun item hitem =>
      KeySchema.isIn_toRecord.2 ((hreads'.mem_iff item).1 hitem).2.1
  constructor
  · intro hperm
    exact ⟨fun record hrecord => hown' record (hperm.mem_iff.1 hrecord),
      fun record hrecord => hown record (hperm.mem_iff.2 hrecord)⟩
  · simp only [List.forall_mem_map, KeySchema.isIn_toRecord]
    rintro ⟨hhas, hhas'⟩
    refine ((List.perm_ext_iff_of_nodup hreads.nodup hreads'.nodup).2 fun item => ?_).map _
    constructor
    · intro hitem
      obtain ⟨hmem, -, hall⟩ := (hreads.mem_iff item).1 hitem
      exact (hreads'.mem_iff item).2 ⟨hstored ▸ hmem, hhas item hitem,
        fun c hc => (hholds item hmem c hc).1 (hall c hc)⟩
    · intro hitem
      obtain ⟨hmem, -, hall⟩ := (hreads'.mem_iff item).1 hitem
      have hmem' := hstored.symm ▸ hmem
      exact (hreads.mem_iff item).2 ⟨hmem', hhas' item hitem,
        fun c hc => (hholds item hmem' c hc).2 (hall c hc)⟩

/-- Two models that differ in their indexes, with the same records created in both, answer a filter
with the same records exactly if each of them answers only records that have the key attributes of
the table or index that the other one reads. Each condition compares an attribute with one value,
which both models store alike; where only one of the plans uses it as a key condition, the values of
the records must be comparable. -/
theorem all_perm_iff {definition definition' : ModelDefinition}
    {registry registered registry' registered' : Registry}
    (hdefine : registry.define definition = .ok (schema, registered))
    (hdefine' : registry'.define definition' = .ok (schema', registered'))
    (hdiffer : definition.withoutIndexes = definition'.withoutIndexes)
    (hcreated : HoldsCreated schema creations store)
    (hcreated' : HoldsCreated schema' creations store')
    {json : Json} (hdistinct : json.HasDistinctKeys) (hfilter : Filter.ofJson json = .ok filter)
    (hsingle : ∀ c ∈ filter.conditions, c.2.IsSingle) (hlimit : filter.limit = none)
    (hoffset : filter.offset = 0) (hmin : filter.minResults = none)
    (hplan : schema.plan filter = .ok plan) (hplan' : schema'.plan filter = .ok plan')
    (hboolean : ∀ c ∈ filter.conditions, schema.type? c.1 = some .boolean →
      schema.isIndexed c.1 = schema'.isIndexed c.1)
    (halike : ∀ table, store.table schema.tableName = .ok table →
      ∀ item ∈ table.storage.allItems, plan.ComparesAlike plan' schema filter item)
    (hall : (Connector.local.all schema filter).run.run store = (.ok records, after))
    (hall' : (Connector.local.all schema' filter).run.run store' = (.ok records', after')) :
    ∃ table table' keys keys', store.table schema.tableName = .ok table ∧
      store'.table schema'.tableName = .ok table' ∧
      table.keySchemaFor plan.selection.index = .ok keys ∧
      table'.keySchemaFor plan'.selection.index = .ok keys' ∧
      (records.Perm records' ↔
        (∀ record ∈ records, keys'.IsIn record) ∧ ∀ record ∈ records', keys.IsIn record) := by
  have hschemas := Schema.withoutIndexes_of_resolve hdiffer (Registry.resolve_of_define hdefine)
    (Registry.resolve_of_define hdefine')
  obtain ⟨hsize, hholds, -⟩ := hcreated.exists_table
  obtain ⟨hsize', hholds', -⟩ := hcreated'.exists_table
  have hnodup := Filter.nodup_of_ofJson hdistinct hfilter
  have hlist : ∀ c ∈ filter.conditions, ∀ values, c.2 ≠ .list values :=
    fun c hc => (hsingle c hc).ne_list
  obtain ⟨_, items, hplanned, hfetch, hrecords⟩ := all_eq_ok hlimit hoffset hmin hall
  obtain ⟨_, items', hplanned', hfetch', hrecords'⟩ := all_eq_ok hlimit hoffset hmin hall'
  obtain rfl := Except.ok.inj (hplan.symm.trans hplanned)
  obtain rfl := Except.ok.inj (hplan'.symm.trans hplanned')
  obtain ⟨table, keys, htable, hreads⟩ := reads_of_fetch hsize hholds hnodup hlist hplan hfetch
  obtain ⟨table', keys', htable', hreads'⟩ :=
    reads_of_fetch hsize' hholds' hnodup hlist hplan' hfetch'
  have hstored := hcreated.allItems_eq hcreated' hschemas htable htable'
  have hiff := perm_iff_of_reads hreads hreads' hstored fun item hitem c hc =>
    holds_iff_holds hreads hreads' (halike table htable item hitem) hc fun value =>
      congrArg Json.toAttribute (Schema.bind_withoutIndexes hschemas (hboolean c hc) value)
  refine ⟨table, table', keys, keys', htable, htable', hreads.keySchemaFor, hreads'.keySchemaFor,
    ?_⟩
  rw [hrecords.congr_left, hrecords'.congr_right, hiff]
  simp only [hrecords.mem_iff, hrecords'.mem_iff]

/-- The properties of chores: with an index of those that have an owner and a date, and one of those
that have a room and are urgent or not; or without indexes. -/
def choreProperties (indexed : Bool) : Json := .obj [
  ("id", .obj [("type", .str "String"), ("keyType", .str "hash")]),
  ("owner", declared "due"), ("room", declared "urgent"), ("due", .str "Number"),
  ("urgent", .str "Boolean")]
where
  /-- A text, with an index or without. -/
  declared (rangeKey : String) : Json := .obj <| ("type", .str "String") ::
    if indexed then [("index", .obj [("global", .obj [("rangeKey", .str rangeKey)])])] else []

def choreIndex (name rangeKey : String) : Index where
  name := name ++ "GlobalIndex"
  kind := .globalIndex
  hashKey := name
  rangeKey := some rangeKey
  projection := .keysOnly
  throughput := some ⟨defaultReadCapacity, defaultWriteCapacity⟩

def chores (indexed : Bool) : Schema where
  name := "Chore"
  tableName := "Chore"
  hashKey := "id"
  rangeKey := none
  compositeKey := none
  separator := defaultSeparator
  generatesHash := false
  types := [("due", .number), ("id", .string), ("owner", .string), ("room", .string),
    ("urgent", .boolean)]
  localIndexes := []
  globalIndexes :=
    if indexed then [("owner", choreIndex "owner" "due"), ("room", choreIndex "room" "urgent")]
    else []
  settings := {}

theorem exists_chores (indexed : Bool) : ∃ definition,
    ModelDefinition.ofJson "Chore" (choreProperties indexed) .null = .ok definition ∧
      Registry.define [] definition = .ok (chores indexed, [("Chore", chores indexed)]) :=
  bind_eq_ok_iff.1 (show (do
    let definition ← ModelDefinition.ofJson "Chore" (choreProperties indexed) .null
    Registry.define [] definition) = .ok (chores indexed, [("Chore", chores indexed)]) by
      cases indexed <;> rfl)

/-- The definitions of chores differ in their indexes only. -/
theorem exists_chores_both : ∃ definition definition',
    ModelDefinition.ofJson "Chore" (choreProperties true) .null = .ok definition ∧
    ModelDefinition.ofJson "Chore" (choreProperties false) .null = .ok definition' ∧
    Registry.define [] definition = .ok (chores true, [("Chore", chores true)]) ∧
    Registry.define [] definition' = .ok (chores false, [("Chore", chores false)]) ∧
    definition.withoutIndexes = definition'.withoutIndexes := by
  obtain ⟨definition, hread, hdefine⟩ := exists_chores true
  obtain ⟨definition', hread', hdefine'⟩ := exists_chores false
  refine ⟨definition, definition', hread, hread', hdefine, hdefine', ?_⟩
  have hsame : (ModelDefinition.ofJson "Chore" (choreProperties true) .null).map
      ModelDefinition.withoutIndexes = (ModelDefinition.ofJson "Chore" (choreProperties false)
        .null).map ModelDefinition.withoutIndexes := by decide +kernel
  rw [hread, hread'] at hsame
  exact Except.ok.inj hsame

def chore (id owner : String) (attributes : Record) : String × Record :=
  ("", [("id", .str id), ("owner", .str owner)] ++ attributes)

def choreStore (indexed : Bool) (creations : List (String × Record)) : MemoryStore :=
  ((createAll (chores indexed) creations).run.run ((chores indexed).freshStore {}) :
    Except Interruption (List Json) × MemoryStore).2

theorem holdsCreated_choreStore {indexed : Bool}
    (h : ((createAll (chores indexed) creations).run.run ((chores indexed).freshStore {}) :
      Except Interruption (List Json) × MemoryStore).1.isOk) :
    HoldsCreated (chores indexed) creations (choreStore indexed creations) := by
  obtain ⟨ids, hcreate⟩ := Operation.exists_eq_ok_of_isOk h
  exact ⟨_, ids, (chores indexed).isProvisioned_freshStore {}, by cases indexed <;> decide,
    fun table => (chores indexed).allItems_freshStore, hcreate⟩

def foundChores (indexed : Bool) (creations : List (String × Record)) (filter : Filter) :
    Except Interruption (List Record) × MemoryStore :=
  (Connector.local.all (chores indexed) filter).run.run (choreStore indexed creations)

/-- Whether the chores that a filter finds among created ones depend on the indexes. -/
def ChoresDiffer (creations : List (String × Record)) (json : Json) : Prop :=
  ∃ filter store store' after after' records records',
    json.HasDistinctKeys ∧ Filter.ofJson json = .ok filter ∧
    (∀ c ∈ filter.conditions, c.2.IsSingle) ∧ filter.limit = none ∧ filter.offset = 0 ∧
    filter.minResults = none ∧ HoldsCreated (chores true) creations store ∧
    HoldsCreated (chores false) creations store' ∧
    (Connector.local.all (chores true) filter).run.run store = (.ok records, after) ∧
    (Connector.local.all (chores false) filter).run.run store' = (.ok records', after') ∧
    ¬records.Perm records'

/-- The chores that are found differ where their numbers do. -/
theorem choresDiffer_of_length {json : Json} (conditions : List (String × Condition))
    (hdistinct : json.HasDistinctKeys) (hfilter : Filter.ofJson json = .ok { conditions })
    (hsingle : ∀ c ∈ conditions, c.2.IsSingle)
    (hcreate : ∀ indexed, ((createAll (chores indexed) creations).run.run
      ((chores indexed).freshStore {}) : Except Interruption (List Json) × MemoryStore).1.isOk)
    (hfound : ∀ indexed, (foundChores indexed creations { conditions }).1.isOk)
    (hlength : (foundChores true creations { conditions }).1.map List.length ≠
      (foundChores false creations { conditions }).1.map List.length) :
    ChoresDiffer creations json := by
  obtain ⟨records, hrecords⟩ := Operation.exists_eq_ok_of_isOk (hfound true)
  obtain ⟨records', hrecords'⟩ := Operation.exists_eq_ok_of_isOk (hfound false)
  refine ⟨{ conditions }, _, _, _, _, records, records', hdistinct, hfilter, hsingle, rfl, rfl, rfl,
    holdsCreated_choreStore (hcreate true), holdsCreated_choreStore (hcreate false), hrecords,
    hrecords', fun hperm => hlength ?_⟩
  unfold foundChores
  rw [hrecords, hrecords']
  exact congrArg Except.ok hperm.length_eq

def whereJson (conditions : Record) : Json := .obj [("where", .obj conditions)]

theorem hasDistinctKeys_whereJson {conditions : Record}
    (hnodup : (conditions.map (·.1)).Nodup)
    (hvalues : ∀ entry ∈ conditions, entry.2.HasDistinctKeys) :
    (whereJson conditions).HasDistinctKeys :=
  .obj (by simp) (List.forall_mem_singleton.2 (.obj hnodup hvalues))

/-- Indexes may change what is found: a chore without a date is not in the index of its owner, a
date that is a text comes before all numbers there, and a flag is asked for as a text once it is the
range key of an index. -/
theorem chores_differ :
    (∃ definition definition',
      ModelDefinition.ofJson "Chore" (choreProperties true) .null = .ok definition ∧
      ModelDefinition.ofJson "Chore" (choreProperties false) .null = .ok definition' ∧
      Registry.define [] definition = .ok (chores true, [("Chore", chores true)]) ∧
      Registry.define [] definition' = .ok (chores false, [("Chore", chores false)]) ∧
      definition.withoutIndexes = definition'.withoutIndexes) ∧
    ChoresDiffer [chore "1" "ann" []] (whereJson [("owner", .str "ann")]) ∧
    ChoresDiffer [chore "1" "ann" [("due", .str "soon")]]
      (whereJson [("owner", .str "ann"), ("due", .obj [("lt", .ofInt 5)])]) ∧
    ChoresDiffer [chore "1" "ann" [("urgent", .bool true)]]
      (whereJson [("urgent", .bool true)]) := by
  refine ⟨exists_chores_both, ?_, ?_, ?_⟩
  · refine choresDiffer_of_length [("owner", .equals (.str "ann"))]
      (hasDistinctKeys_whereJson (by decide) ?_) rfl ?_ (by decide +kernel) (by decide +kernel)
      (by decide +kernel)
    · exact List.forall_mem_singleton.2 (.str _)
    · exact List.forall_mem_singleton.2 (.inl ⟨_, rfl⟩)
  · refine choresDiffer_of_length [("owner", .equals (.str "ann")),
      ("due", .operator .lt (.ofInt 5))] (hasDistinctKeys_whereJson (by decide) ?_) rfl ?_
      (by decide +kernel) (by decide +kernel) (by decide +kernel)
    · simp only [List.forall_mem_cons]
      exact ⟨.str _, .obj (by decide) (List.forall_mem_singleton.2 (.num _)), nofun⟩
    · simp only [List.forall_mem_cons]
      exact ⟨.inl ⟨_, rfl⟩, .inr ⟨_, _, rfl⟩, nofun⟩
  · refine choresDiffer_of_length [("urgent", .equals (.bool true))]
      (hasDistinctKeys_whereJson (by decide) ?_) rfl ?_ (by decide +kernel) (by decide +kernel)
      (by decide +kernel)
    · exact List.forall_mem_singleton.2 (.bool _)
    · exact List.forall_mem_singleton.2 (.inl ⟨_, rfl⟩)

/-- A chore with a date, and one of another owner without. -/
def assignedChores : List (String × Record) :=
  [chore "1" "ann" [("due", .ofInt 3)], chore "2" "bob" []]

def annsChores : Filter where
  conditions := [("owner", .equals (.str "ann"))]

/-- What the chores of an owner are read from: their index, where there is one. -/
def annsIndex (indexed : Bool) : Option String :=
  if indexed then some "ownerGlobalIndex" else none

/-- The records that are found have all attributes of the keys by which chores are read. -/
theorem isIn_foundChores {indexed other : Bool} {after : MemoryStore}
    (h : foundChores indexed assignedChores annsChores = (.ok records, after))
    (htable : (choreStore other assignedChores).table (chores other).tableName = .ok table)
    (hkeys : table.keySchemaFor (annsIndex other) = .ok keys) :
    ∀ record ∈ records, keys.IsIn record := by
  have hfound : (foundChores indexed assignedChores annsChores).1.toOption.all fun records =>
      records.all fun record => ["due", "id", "owner"].all fun name =>
        (Record.get? record name).isSome := by
    cases indexed <;> decide +kernel
  have hnames : ((choreStore other assignedChores).table (chores other).tableName).toOption.all
      fun table => (table.keySchemaFor (annsIndex other)).toOption.all
        fun keys => keys.names.all (· ∈ ["due", "id", "owner"]) := by
    cases other <;> decide +kernel
  have hhas := of_all_toOption hfound (congrArg Prod.fst h)
  have hread := of_all_toOption hnames htable
  have hmem := of_all_toOption hread hkeys
  intro record hrecord name hname
  exact List.all_eq_true.1 (List.all_eq_true.1 hhas record hrecord) name
    (of_decide_eq_true (List.all_eq_true.1 hmem name hname))

/-- The chores of an owner that all have dates are found with indexes as without. -/
theorem all_perm_annsChores : ∃ records records' after after',
    foundChores true assignedChores annsChores = (.ok records, after) ∧
    foundChores false assignedChores annsChores = (.ok records', after') ∧
    records.length = 1 ∧ records.Perm records' := by
  have hcreated (indexed : Bool) : HoldsCreated (chores indexed) assignedChores
      (choreStore indexed assignedChores) :=
    holdsCreated_choreStore (by cases indexed <;> decide +kernel)
  have hok (indexed : Bool) : (foundChores indexed assignedChores annsChores).1.isOk := by
    cases indexed <;> decide +kernel
  have hone : (foundChores true assignedChores annsChores).1.map List.length = .ok 1 := by
    decide +kernel
  obtain ⟨records, hall⟩ := Operation.exists_eq_ok_of_isOk (hok true)
  obtain ⟨records', hall'⟩ := Operation.exists_eq_ok_of_isOk (hok false)
  obtain ⟨definition, definition', -, -, hdefine, hdefine', hdiffer⟩ := exists_chores_both
  have hdistinct : (whereJson [("owner", .str "ann")]).HasDistinctKeys :=
    hasDistinctKeys_whereJson (by decide) (List.forall_mem_singleton.2 (.str _))
  obtain ⟨plan, hplan, hindex⟩ : ∃ plan, (chores true).plan annsChores = .ok plan ∧
      plan.selection.index = annsIndex true := ⟨_, rfl, rfl⟩
  obtain ⟨plan', hplan', hindex'⟩ : ∃ plan, (chores false).plan annsChores = .ok plan ∧
      plan.selection.index = annsIndex false := ⟨_, rfl, rfl⟩
  have halike : ∀ item, plan.ComparesAlike plan' (chores true) annsChores item := fun item =>
    List.forall_mem_singleton.2 fun _ value key _ _ a b _ hb => by cases hb
  obtain ⟨table, table', keys, keys', htable, htable', hkeys, hkeys', hperm⟩ :=
    all_perm_iff hdefine hdefine' hdiffer (hcreated true) (hcreated false) hdistinct
      (show Filter.ofJson _ = .ok annsChores from rfl)
      (List.forall_mem_singleton.2 (.inl ⟨_, rfl⟩)) rfl rfl rfl hplan hplan'
      (List.forall_mem_singleton.2 nofun) (fun table _ item _ => halike item) hall hall'
  rw [hindex] at hkeys
  rw [hindex'] at hkeys'
  unfold foundChores at hone
  rw [hall] at hone
  exact ⟨records, records', _, _, hall, hall', Except.ok.inj hone,
    hperm.2 ⟨isIn_foundChores hall htable' hkeys', isIn_foundChores hall' htable hkeys⟩⟩

end Connector

end KeyedStore
