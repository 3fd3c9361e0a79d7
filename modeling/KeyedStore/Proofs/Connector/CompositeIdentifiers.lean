import KeyedStore.Proofs.Connector.Calls
import KeyedStore.Proofs.Connector.CreatedRecords

/-!
# Composite identifiers of stored records

The composite identifier of a stored record is made of its own hash and range, whatever calls wrote
it, provided that no update is made under an identifier that spells the key otherwise: `5` and `5.0`
are the same key, and an update sets the identifier that it was called with.
-/
namespace KeyedStore

namespace Schema

/-- Whether a record holds the identifier that is made of its hash and range. -/
def IsIdentified (schema : Schema) (record : Record) : Prop :=
  ∃ compositeKey id, schema.compositeKey = some compositeKey ∧
    schema.identifier? record = some id ∧ record.get? compositeKey = some (.str id)

/-- Whether all records of the table of a schema hold their identifiers. -/
def AllIdentified (schema : Schema) (store : MemoryStore) : Prop :=
  ∃ table, store.table schema.tableName = .ok table ∧
    ∀ item ∈ table.storage.allItems, schema.IsIdentified (Item.toRecord item)

end Schema

namespace Connector

/-- Whether an update is made under the identifier of the record that it finds, if it finds one. -/
def Call.KeepsIdentifier (schema : Schema) (store : MemoryStore) : Call → Prop
  | .update id _ => ∀ key stored, schema.keyForId id = .ok key →
    (Connector.local.find schema id).run.run store = (.ok (some stored), store) →
    schema.identifier? stored = schema.identifier? key
  | _ => True

/-- Whether an item carries the identifier made of its hash and range. -/
structure Carries (schema : Schema) (rangeKey : String) (item : Item) (hash range : Json) :
    Prop where
  get?_hash : item.get? schema.hashKey = some hash.toAttribute
  get?_range : item.get? rangeKey = some range.toAttribute
  get?_id : item.get? idAttribute = some (.string (schema.encodeId hash range))

/-- The invariant of a run: the items of the table of a schema carry their identifiers. -/
abbrev HoldsIdentified (schema : Schema) (rangeKey : String) : MemoryStore → Prop :=
  Holds schema fun item => ∃ hash range, Carries schema rangeKey item hash range

variable {schema : Schema} {rangeKey : String} {store after : MemoryStore} {table : MemoryTable}
  {storage : TableStorage} {item : Item}

section Writing

variable {fresh : Option String} {data written : Record} {hash range id : Json}

theorem carries_toItem (h : schema.IsWritten rangeKey written hash range) :
    Carries schema rangeKey (Record.toItem written) hash range where
  get?_hash := by simp [get?_toItem, h.get?_hash]
  get?_range := by simp [get?_toItem, h.get?_range]
  get?_id := by simp [get?_toItem, h.get?_id, Json.toAttribute]

/-- A record that is written carries its identifier. -/
theorem exists_carries_of_prepareWrite (hjoins : schema.JoinsKeys rangeKey)
    (hprepare : schema.prepareWrite fresh data = (.ok id, written)) :
    ∃ hash range, Carries schema rangeKey (Record.toItem written) hash range := by
  obtain ⟨hash, range, -, hwritten⟩ := hjoins.prepareWrite_eq_ok hprepare
  exact ⟨hash, range, carries_toItem hwritten⟩

end Writing

section Keys

variable {name : String} {a b : Json} {first second : KeyValue}

/-- Values that are the same key are the same, provided that numbers are spelled alike. -/
theorem eq_of_compare_eq (ha : KeyValue.ofAttribute name a.toAttribute = .ok first)
    (hb : KeyValue.ofAttribute name b.toAttribute = .ok second) (h : compare first second = .eq)
    (hspelled : ∀ n m, a = .num n → b = .num m → n = m) : a = b := by
  cases a with
  | null | bool _ | arr _ | obj _ => cases ha
  | num n =>
    cases b with
    | null | bool _ | arr _ | obj _ => cases hb
    | num m => rw [hspelled n m rfl rfl]
    | str t =>
      cases ha
      cases hb
      cases h
  | str s =>
    cases b with
    | null | bool _ | arr _ | obj _ => cases hb
    | num m =>
      cases ha
      cases hb
      cases h
    | str t =>
      cases ha
      cases hb
      exact congrArg Json.str (Std.LawfulEqCmp.eq_of_compare (show compare s t = .eq from h))

/-- The key that an identifier names has a hash and a range. -/
theorem get?_toItem_key (hjoins : schema.JoinsKeys rangeKey) (hash range : Json) :
    let key : Item := Record.toItem [(schema.hashKey, hash), (rangeKey, range)]
    key.get? schema.hashKey = some hash.toAttribute ∧
      key.get? rangeKey = some range.toAttribute := by
  simp [get?_toItem, Record.get?, hjoins.hash_ne_range]

/-- The key of an item is made of its hash and range. -/
theorem ofAttribute_of_keyOf (hjoins : schema.JoinsKeys rangeKey)
    (hhash : item.get? schema.hashKey = some a.toAttribute)
    (hrange : item.get? rangeKey = some b.toAttribute) {own : PrimaryKey}
    (hown : (schema.readKey none).keyOf item = .ok own) :
    ((schema.scalarType schema.hashKey).admits a.toAttribute ∧
      KeyValue.ofAttribute schema.hashKey a.toAttribute = .ok own.partition) ∧
    (schema.scalarType rangeKey).admits b.toAttribute ∧
      KeyValue.ofAttribute rangeKey b.toAttribute = .ok own.place := by
  obtain ⟨hreadHash, hreadRange⟩ := KeySchema.keyOf_eq_ok_iff.1 hown
  obtain ⟨hashAttr, hhashAttr, hhashType, hhashValue⟩ := KeyAttribute.read_eq_ok_iff.1 hreadHash
  obtain rfl : a.toAttribute = hashAttr := Option.some.inj (hhash.symm.trans hhashAttr)
  simp only [Schema.readKey, Schema.keySchema, hjoins.rangeKey, Option.map_some] at hreadRange
  obtain ⟨value, hreadRange, hsort⟩ := hreadRange
  obtain ⟨rangeAttr, hrangeAttr, hrangeType, hrangeValue⟩ :=
    KeyAttribute.read_eq_ok_iff.1 hreadRange
  obtain rfl : b.toAttribute = rangeAttr := Option.some.inj (hrange.symm.trans hrangeAttr)
  have hplace : own.place = value := by simp [PrimaryKey.place, hsort]
  exact ⟨⟨hhashType, hhashValue⟩, hrangeType, hplace ▸ hrangeValue⟩

/-- The record of an item has the hash and the range that the item was made of. -/
theorem identifier?_toRecord (hjoins : schema.JoinsKeys rangeKey)
    (hhash : item.get? schema.hashKey = some a.toAttribute)
    (hrange : item.get? rangeKey = some b.toAttribute) {own : PrimaryKey}
    (hown : (schema.readKey none).keyOf item = .ok own) :
    schema.identifier? (Item.toRecord item) = some (schema.encodeId a b) := by
  obtain ⟨⟨-, hhashValue⟩, -, hrangeValue⟩ := ofAttribute_of_keyOf hjoins hhash hrange hown
  refine hjoins.identifier?_eq_some ?_ ?_
  · rw [get?_toRecord, hhash, Option.map_some, toJson_toAttribute_of_ofAttribute hhashValue]
  · rw [get?_toRecord, hrange, Option.map_some, toJson_toAttribute_of_ofAttribute hrangeValue]

end Keys

/-- Items that carry their identifiers are records that hold them. -/
theorem HoldsIdentified.allIdentified (h : HoldsIdentified schema rangeKey store)
    (hjoins : schema.JoinsKeys rangeKey) : schema.AllIdentified store := by
  obtain ⟨table, htable, hschema, hcarries⟩ := h.exists_table
  refine ⟨table, htable, fun item hmem => ?_⟩
  obtain ⟨hash, range, hcarry⟩ := hcarries item hmem
  obtain ⟨own, hown⟩ := (h.of_table htable).1.exists_keyOf hmem
  refine ⟨idAttribute, _, hjoins.compositeKey,
    identifier?_toRecord hjoins hcarry.get?_hash hcarry.get?_range (hschema ▸ hown), ?_⟩
  rw [get?_toRecord, hcarry.get?_id]
  rfl

section Updating

variable {id : Json} {changes record : Record}

/-- What an update of a store with identified records puts: an item with the identifier that its key
says, which is that of its own hash and range if the update keeps identifiers. -/
theorem HoldsIdentified.update_eq_ok (h : HoldsIdentified schema rangeKey store)
    (hjoins : schema.JoinsKeys rangeKey) (hproper : changes.IsProper)
    (hupdate : (Connector.local.update schema id changes).run.run store = (.ok record, after)) :
    ∃ (table : MemoryTable) (changed : Item) (replaced : Option Item) (storage : TableStorage)
      (hash range : Json) (text : String), store.table schema.tableName = .ok table ∧
      table.storage.put changed = .ok (replaced, storage) ∧
      after = store.setTable { table with storage } ∧
      changed.get? schema.hashKey = some hash.toAttribute ∧
      changed.get? rangeKey = some range.toAttribute ∧
      changed.get? idAttribute = some (.string text) ∧
      ((Call.update id changes).KeepsIdentifier schema store ↔
        schema.encodeId hash range = text) := by
  obtain ⟨hash, range, table, own, changed, replaced, storage, hkey, htable, hown, hid, hkeys, hput,
    hafter⟩ := update_eq_ok_of_joinsKeys hjoins hproper.distinct hupdate
  obtain ⟨hsound, hschema, hcarries⟩ := h.of_table htable
  have hhashKey : schema.isKey schema.hashKey := by simp [Schema.isKey]
  have hrangeKey : schema.isKey rangeKey := by simp [Schema.isKey, hjoins.rangeKey]
  have hfind : (Connector.local.find schema id).run.run store =
      (.ok ((table.storage.get? own).map Item.toRecord), store) :=
    find_eq_ok_iff.2 ⟨rfl, _, _, hkey, MemoryStore.getItem_of_requestKey htable hown, rfl⟩
  have hidentifier := hjoins.identifier?_key hash range
  cases hget : table.storage.get? own with
  | none =>
    -- The item is made of the key that the identifier was read as.
    rw [hget] at hkeys hfind
    obtain ⟨hkeyHash, hkeyRange⟩ := get?_toItem_key hjoins hash range
    refine ⟨table, changed, replaced, storage, hash, range, _, htable, hput, hafter,
      (hkeys _ hhashKey).trans hkeyHash, (hkeys _ hrangeKey).trans hkeyRange, hid,
      iff_of_true (fun key stored _ hstored => ?_) rfl⟩
    cases hfind.symm.trans hstored
  | some existing =>
    -- The item keeps the key that it has, which may be another spelling of the one that was read.
    rw [hget] at hkeys hfind
    obtain ⟨hmem, own', hown', -⟩ := hsound.get?_eq_some_iff.1 hget
    obtain ⟨hash', range', hcarry⟩ := hcarries existing hmem
    have hstored := identifier?_toRecord hjoins hcarry.get?_hash hcarry.get?_range (hschema ▸ hown')
    refine ⟨table, changed, replaced, storage, hash', range', _, htable, hput, hafter,
      (hkeys _ hhashKey).trans hcarry.get?_hash, (hkeys _ hrangeKey).trans hcarry.get?_range, hid,
      fun hkeeps => ?_, fun heq => ?_⟩
    · simpa [hstored, hidentifier] using hkeeps _ _ hkey hfind
    · intro key stored hkey' hfind'
      cases hkey.symm.trans hkey'
      cases hfind.symm.trans hfind'
      rw [hstored, hidentifier, heq]

theorem HoldsIdentified.update (h : HoldsIdentified schema rangeKey store)
    (hjoins : schema.JoinsKeys rangeKey) (hproper : changes.IsProper)
    (hkeeps : (Call.update id changes).KeepsIdentifier schema store)
    (hupdate : (Connector.local.update schema id changes).run.run store = (.ok record, after)) :
    HoldsIdentified schema rangeKey after := by
  obtain ⟨table, changed, replaced, storage, hash, range, text, htable, hput, rfl, hhash, hrange,
    hid, hiff⟩ := h.update_eq_ok hjoins hproper hupdate
  obtain rfl := hiff.1 hkeeps
  exact h.put htable hput ⟨hash, range, hhash, hrange, hid⟩

/-- If all records hold their identifiers after an update, it was made under the identifier of the
record that it found. -/
theorem HoldsIdentified.keepsIdentifier_of_update (h : HoldsIdentified schema rangeKey store)
    (hjoins : schema.JoinsKeys rangeKey) (hproper : changes.IsProper)
    (hupdate : (Connector.local.update schema id changes).run.run store = (.ok record, after))
    (hafter : schema.AllIdentified after) :
    (Call.update id changes).KeepsIdentifier schema store := by
  obtain ⟨table, changed, replaced, storage, hash, range, text, htable, hput, rfl, hhash, hrange,
    hid, hiff⟩ := h.update_eq_ok hjoins hproper hupdate
  obtain ⟨hsound, hschema, -⟩ := h.of_table htable
  have hname := h.isSound.name_of_table htable
  obtain ⟨own, hown, -, -, hput'⟩ := TableStorage.put_eq_ok hput
  have hmem := ((hsound.put hput).get?_eq_some_iff.1 ((hput' own).trans (if_pos own.same_self))).1
  obtain ⟨remaining, hremaining, hidentified⟩ := hafter
  obtain rfl : { table with storage } = remaining := by
    rw [MemoryStore.table_eq_ok_iff, MemoryStore.get?_setTable, if_pos hname.symm] at hremaining
    exact Option.some.inj hremaining
  obtain ⟨compositeKey, made, hcomposite, hmade, hstored⟩ := hidentified changed hmem
  obtain rfl : idAttribute = compositeKey :=
    Option.some.inj (hjoins.compositeKey.symm.trans hcomposite)
  rw [identifier?_toRecord hjoins hhash hrange (hschema ▸ hown)] at hmade
  rw [get?_toRecord, hid] at hstored
  cases hmade
  cases hstored
  exact hiff.2 rfl

end Updating

section Calls

variable {call : Call}

/-- A call that keeps identifiers keeps the invariant. -/
theorem HoldsIdentified.perform (h : HoldsIdentified schema rangeKey store)
    (hjoins : schema.JoinsKeys rangeKey) (hproper : call.IsProper)
    (hkeeps : call.KeepsIdentifier schema store)
    (hcall : (call.perform schema).run.run store = (.ok (), after)) :
    HoldsIdentified schema rangeKey after := by
  refine Holds.perform h (fun _ _ _ _ hprepare => exists_carries_of_prepareWrite hjoins hprepare)
    (fun id changes record heq hupdate => ?_) hcall
  subst heq
  exact h.update hjoins hproper hkeeps hupdate

theorem HoldsIdentified.keepsIdentifier (h : HoldsIdentified schema rangeKey store)
    (hjoins : schema.JoinsKeys rangeKey) (hproper : call.IsProper)
    (hcall : (call.perform schema).run.run store = (.ok (), after))
    (hafter : schema.AllIdentified after) : call.KeepsIdentifier schema store := by
  cases call with
  | update id changes =>
    obtain ⟨record, hupdate, -⟩ := Operation.map_eq_ok_iff.1 hcall
    exact h.keepsIdentifier_of_update hjoins hproper hupdate hafter
  | create _ _ | save _ | destroy _ | destroyAll _ => trivial

/-- Where hash and range are texts, every call keeps identifiers, for texts have one spelling. -/
theorem HoldsIdentified.keepsIdentifier_of_text (h : HoldsIdentified schema rangeKey store)
    (hjoins : schema.JoinsKeys rangeKey) (hhashText : schema.scalarType schema.hashKey = .string)
    (hrangeText : schema.scalarType rangeKey = .string) (call : Call) :
    call.KeepsIdentifier schema store := by
  have htext {json : Json} (hadmits : ScalarType.string.admits json.toAttribute) (n : Number) :
      json ≠ .num n := by
    rintro rfl
    cases hadmits
  cases call with
  | create _ _ | save _ | destroy _ | destroyAll _ => trivial
  | update id changes =>
    intro key stored hkey hfind
    obtain ⟨-, _, answer, hkey', hgetItem, hstored⟩ := find_eq_ok_iff.1 hfind
    obtain rfl : key = _ := Except.ok.inj (hkey.symm.trans hkey')
    obtain ⟨hash, range, rfl⟩ := hjoins.keyForId_eq_ok hkey
    obtain ⟨table, own, htable, hown, hitem⟩ := MemoryStore.getItem_eq_ok hgetItem
    obtain ⟨existing, hexisting, rfl⟩ := Option.map_eq_some_iff.1 hstored
    obtain ⟨hsound, hschema, hcarries⟩ := h.of_table htable
    obtain ⟨hmem, own', hown', hsame⟩ :=
      hsound.get?_eq_some_iff.1 (hitem.symm.trans hexisting)
    obtain ⟨hash', range', hcarry⟩ := hcarries existing hmem
    rw [hschema] at hown hown'
    obtain ⟨hkeyHash, hkeyRange⟩ := get?_toItem_key hjoins hash range
    obtain ⟨⟨-, hhash⟩, -, hrange⟩ :=
      ofAttribute_of_keyOf hjoins hkeyHash hkeyRange (MemoryStore.keyOf_of_requestKey hown)
    obtain ⟨⟨hhashType', hhash'⟩, hrangeType', hrange'⟩ :=
      ofAttribute_of_keyOf hjoins hcarry.get?_hash hcarry.get?_range hown'
    obtain ⟨hsameHash, hsameRange⟩ := PrimaryKey.same_iff.1 hsame
    rw [hhashText] at hhashType'
    rw [hrangeText] at hrangeType'
    obtain rfl : hash' = hash := eq_of_compare_eq hhash' hhash
      (Std.OrientedCmp.eq_symm hsameHash) fun n _ hn => absurd hn (htext hhashType' n)
    obtain rfl : range' = range := eq_of_compare_eq hrange' hrange
      (Std.OrientedCmp.eq_symm hsameRange) fun n _ hn => absurd hn (htext hrangeType' n)
    rw [identifier?_toRecord hjoins hcarry.get?_hash hcarry.get?_range hown']
    exact (hjoins.identifier?_key _ _).symm

end Calls

section Runs

variable {start : MemoryStore} {steps : List (MemoryStore × Call)}

/-- Calls that keep identifiers keep the invariant in every store that they lead to. -/
theorem CallRun.holdsIdentified (hrun : CallRun schema start steps store)
    (hjoins : schema.JoinsKeys rangeKey) (hstart : HoldsIdentified schema rangeKey start)
    (hkeeps : ∀ step ∈ steps, step.2.KeepsIdentifier schema step.1) :
    HoldsIdentified schema rangeKey store ∧
      ∀ step ∈ steps, HoldsIdentified schema rangeKey step.1 := by
  induction hrun with
  | nil => exact ⟨hstart, nofun⟩
  | @call steps before after call run proper succeeds ih =>
    obtain ⟨hbefore, hsteps⟩ := ih fun step hmem => hkeeps step (List.mem_append_left _ hmem)
    refine ⟨hbefore.perform hjoins proper (hkeeps (before, call) (by simp)) succeeds, ?_⟩
    rw [List.forall_mem_append]
    exact ⟨hsteps, by simpa using hbefore⟩

/-- If the records of every store that calls lead to hold their identifiers, each of the calls keeps
them. -/
theorem CallRun.keepsIdentifier (hrun : CallRun schema start steps store)
    (hjoins : schema.JoinsKeys rangeKey) (hstart : HoldsIdentified schema rangeKey start)
    (hsteps : ∀ step ∈ steps, schema.AllIdentified step.1) (hlast : schema.AllIdentified store) :
    ∀ step ∈ steps, step.2.KeepsIdentifier schema step.1 := by
  induction hrun with
  | nil => exact nofun
  | @call steps before after call run proper succeeds ih =>
    rw [List.forall_mem_append] at hsteps ⊢
    obtain ⟨hfirst, hbefore⟩ := hsteps
    -- The calls before the last one kept the invariant, so it holds where the last one is made.
    have hkeeps := ih hfirst (hbefore (before, call) (by simp))
    have hholds := (run.holdsIdentified hjoins hstart hkeeps).1
    exact ⟨hkeeps, by simpa using hholds.keepsIdentifier hjoins proper succeeds hlast⟩

/-- In all stores that calls lead to from an empty table, the records of a model hold the
identifiers that are made of their hash and range, exactly if each update is made under the
identifier of the record that it finds. -/
theorem allIdentified_iff {properties settings : Json} (hdistinct : properties.HasDistinctKeys)
    {name : String} {definition : ModelDefinition}
    (hdefinition : ModelDefinition.ofJson name properties settings = .ok definition)
    {registry registered : Registry}
    (hdefine : registry.define definition = .ok (schema, registered))
    (hcomposite : schema.isComposite) (hprovisioned : schema.IsProvisioned start)
    (hempty : ∀ table, start.table schema.tableName = .ok table → table.storage.allItems = [])
    (hrun : CallRun schema start steps store) :
    (schema.AllIdentified store ∧ ∀ step ∈ steps, schema.AllIdentified step.1) ↔
      ∀ step ∈ steps, step.2.KeepsIdentifier schema step.1 := by
  obtain ⟨hnone, -⟩ | ⟨rangeKey, hjoins⟩ := (ModelDefinition.isProper_of_ofJson hdistinct
    hdefinition).schema_cases (Registry.resolve_of_define hdefine)
  · simp [Schema.isComposite, hnone] at hcomposite
  have hstart : HoldsIdentified schema rangeKey start :=
    holds_of_empty hprovisioned hempty
  constructor
  · exact fun hall => hrun.keepsIdentifier hjoins hstart hall.2 hall.1
  · intro hkeeps
    obtain ⟨hlast, hsteps⟩ := hrun.holdsIdentified hjoins hstart hkeeps
    exact ⟨hlast.allIdentified hjoins, fun step hmem => (hsteps step hmem).allIdentified hjoins⟩

/-- Whatever calls are made, records keep their identifiers where hash and range are texts. -/
theorem CallRun.allIdentified_of_text (hrun : CallRun schema start steps store)
    (hjoins : schema.JoinsKeys rangeKey) (hhashText : schema.scalarType schema.hashKey = .string)
    (hrangeText : schema.scalarType rangeKey = .string)
    (hstart : HoldsIdentified schema rangeKey start) : schema.AllIdentified store := by
  suffices h : HoldsIdentified schema rangeKey store from h.allIdentified hjoins
  induction hrun with
  | nil => exact hstart
  | call _ proper succeeds ih =>
    exact ih.perform hjoins proper (ih.keepsIdentifier_of_text hjoins hhashText hrangeText _)
      succeeds

def afterCall (store : MemoryStore) (call : Call) : MemoryStore :=
  ((call.perform orders).run.run store).2

/-- A call that succeeds leads to the store after it. -/
theorem CallRun.afterCall {call : Call} (run : CallRun orders start steps store)
    (proper : call.IsProper)
    (h : ((call.perform orders).run.run store : Except Interruption Unit × MemoryStore).1.isOk) :
    CallRun orders start (steps ++ [(store, call)]) (afterCall store call) := by
  obtain ⟨⟨⟩, hrun⟩ := Operation.exists_eq_ok_of_isOk h
  exact run.call proper hrun

def creation (number : Number) : Call := .create "" (order number)

def totalChange : Call := .update (.str "c1--x--5") [("total", .num (.int 10 (by decide)))]

def createdOrder (number : Number) : MemoryStore :=
  afterCall (orders.freshStore {}) (creation number)

theorem isProper_creation (number : Number) : (creation number).IsProper where
  distinct := by simp [order]
  values := by
    simp only [order, List.forall_mem_cons]
    exact ⟨.str _, .num _, nofun⟩

theorem isProper_totalChange : totalChange.IsProper where
  distinct := by simp
  values := by
    simp only [List.forall_mem_cons]
    exact ⟨.num _, List.forall_mem_nil _⟩

/-- An order whose number is spelled in the same way keeps its identifier. -/
theorem allIdentified_orders : ∃ definition,
    ModelDefinition.ofJson "Order" orderProperties .null = .ok definition ∧
    Registry.define [] definition = .ok (orders, [("Order", orders)]) ∧
    let created := createdOrder (.int 5 (by decide))
    CallRun orders (orders.freshStore {})
      [(orders.freshStore {}, creation (.int 5 (by decide))), (created, totalChange)]
      (afterCall created totalChange) ∧
    orders.AllIdentified (afterCall created totalChange) := by
  obtain ⟨definition, hread, hdefine⟩ := exists_orders
  have hcreated : CallRun orders (orders.freshStore {})
      [(orders.freshStore {}, creation (.int 5 (by decide)))] (createdOrder (.int 5 (by decide))) :=
    CallRun.nil.afterCall (isProper_creation _) (by decide +kernel)
  have hrun := hcreated.afterCall isProper_totalChange (by decide +kernel)
  refine ⟨definition, hread, hdefine, hrun, ?_⟩
  refine ((allIdentified_iff hasDistinctKeys_orderProperties hread hdefine rfl
    (orders.isProvisioned_freshStore {}) (fun table => orders.allItems_freshStore) hrun).2 ?_).1
  simp only [List.cons_append, List.nil_append, List.forall_mem_cons]
  refine ⟨trivial, fun key stored hkey hfind => ?_, List.forall_mem_nil _⟩
  have hnamed : (orders.keyForId (.str "c1--x--5")).toOption.bind orders.identifier? =
      some "c1--x--5" := by decide +kernel
  have hfound : ((Connector.local.find orders (.str "c1--x--5")).run.run
      (createdOrder (.int 5 (by decide))) :
        Except Interruption (Option Record) × MemoryStore).1.toOption.join.bind
      orders.identifier? = some "c1--x--5" := by decide +kernel
  rw [hkey] at hnamed
  rw [hfind] at hfound
  exact hfound.trans hnamed.symm

def realFive : Number := .real ⟨false, 0x4014000000000000, by decide⟩ (by decide)

/-- An order whose number is spelled with a point does not keep its identifier. -/
theorem not_allIdentified_orders : ∃ definition,
    ModelDefinition.ofJson "Order" orderProperties .null = .ok definition ∧
    Registry.define [] definition = .ok (orders, [("Order", orders)]) ∧
    orders.isComposite ∧ orders.IsProvisioned (orders.freshStore {}) ∧
    (∀ table, (orders.freshStore {}).table orders.tableName = .ok table →
      table.storage.allItems = []) ∧
    let created := createdOrder realFive
    CallRun orders (orders.freshStore {})
      [(orders.freshStore {}, creation realFive), (created, totalChange)]
      (afterCall created totalChange) ∧
    ¬orders.AllIdentified (afterCall created totalChange) := by
  obtain ⟨definition, hread, hdefine⟩ := exists_orders
  have hcreated : CallRun orders (orders.freshStore {})
      [(orders.freshStore {}, creation realFive)] (createdOrder realFive) :=
    CallRun.nil.afterCall (isProper_creation _) (by decide +kernel)
  have hrun := hcreated.afterCall isProper_totalChange (by decide +kernel)
  refine ⟨definition, hread, hdefine, rfl, orders.isProvisioned_freshStore {},
    fun table => orders.allItems_freshStore, hrun, ?_⟩
  · rintro ⟨table, htable, hall⟩
    let changed : Item := [("customerId", .string "c1"), ("id", .string "c1--x--5"),
      ("orderId", .number "5.0"), ("total", .number "10")]
    have hitems : ((afterCall (createdOrder realFive) totalChange).table
        orders.tableName).toOption.map (·.storage.allItems) = some [changed] := by decide +kernel
    have hmem : changed ∈ table.storage.allItems := by
      simp only [htable, Except.toOption, Option.map_some, Option.some.injEq] at hitems
      simp [hitems]
    obtain ⟨_, id, ⟨⟩, hid, hstored⟩ := hall changed hmem
    have hmade : orders.identifier? (Item.toRecord changed) = some "c1--x--5.0" := by
      decide +kernel
    have hheld : (Record.get? (Item.toRecord changed) "id").bind Json.str? = some "c1--x--5" := by
      decide +kernel
    rw [hid] at hmade
    rw [hstored] at hheld
    obtain rfl : id = "c1--x--5.0" := Option.some.inj hmade
    exact absurd (Option.some.inj hheld) (by decide)

end Runs

end Connector

end KeyedStore
