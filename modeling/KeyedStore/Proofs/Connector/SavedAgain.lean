import KeyedStore.Proofs.Attribute.RestoredData
import KeyedStore.Proofs.Connector.AcceptedRecords
import KeyedStore.Proofs.Key.PreparedRecords
import KeyedStore.Proofs.Memory.Tables

/-!
# Records that are saved again

Reading a record from the store and saving it changes nothing: what is read is prepared as it is,
and what is put is the item that stands there already. A prepared record need not come from the
store, and then its hash key may be one that was generated in another form than that of the key.
-/
namespace KeyedStore

/-- What is stored is read as text only if it is text. -/
theorem Json.eq_str_of_toJson_toAttribute {json : Json} {text : String}
    (h : json.toAttribute.toJson = .str text) : json = .str text := by
  cases json with
  | num n => exact nomatch (numberToJson_text n).symm.trans h
  | null | bool _ | str _ | arr _ | obj _ => cases h <;> rfl

/-- A value is read from the store as it is where it is stored as a scalar. -/
theorem ScalarType.toJson_toAttribute {type : ScalarType} {json : Json}
    (h : type.admits json.toAttribute) : json.toAttribute.toJson = json := by
  obtain ⟨key, hkey⟩ := ScalarType.exists_ofAttribute "" h
  exact toJson_toAttribute_of_ofAttribute hkey

namespace Record

/-- A record as it is read after it was stored. -/
def restored (record : Record) : Record := Item.toRecord (toItem record)

theorem get?_restored (record : Record) (name : String) :
    record.restored.get? name = (record.get? name).map fun json => json.toAttribute.toJson := by
  rw [restored, get?_toRecord, get?_toItem, Option.map_map]
  rfl

theorem nodup_restored (record : Record) : (record.restored.map (·.1)).Nodup :=
  Item.nodup_toRecord (isAscending_toItem record)

end Record

namespace Schema

variable {schema : Schema} {fresh : Option String} {data record written : Record}
  {id hash range : Json} {key rangeKey : String}

theorem HasDatesBut.restored (h : schema.HasDatesBut key record)
    (hnodup : (record.map (·.1)).Nodup) : schema.HasDatesBut key record.restored := by
  rw [hasDatesBut_iff hnodup] at h
  rw [hasDatesBut_iff record.nodup_restored]
  intro name value hget hne
  rw [Record.get?_restored] at hget
  obtain ⟨json, hjson, rfl⟩ := Option.map_eq_some_iff.1 hget
  rcases schema.coerceDate_cases name json.toAttribute.toJson with hsame | ⟨⟨text, htext⟩, -⟩
  · exact hsame
  · obtain rfl := Json.eq_str_of_toJson_toAttribute htext
    exact h name _ hjson hne

/-- A hash and a range are read from the store as they were written. -/
theorem JoinsKeys.isWritten_restored (hjoins : schema.JoinsKeys rangeKey)
    (h : schema.IsWritten rangeKey record hash range) :
    schema.IsWritten rangeKey record.restored hash range := by
  have hkept {name : String} {value : Json} (hget : record.get? name = some value)
      (hadmits : schema.Admits name value) (hnull : value.isNull = false)
      (htype : ∃ type, schema.type? name = some type ∧ type.scalar?.isSome) :
      record.restored.get? name = some value := by
    obtain ⟨type, htype, hscalar⟩ := htype
    obtain ⟨scalar, hscalar⟩ := Option.isSome_iff_exists.1 hscalar
    rw [Record.get?_restored, hget, Option.map_some, ScalarType.toJson_toAttribute
      (PropertyType.admits_toAttribute hscalar (hadmits type htype) hnull)]
  exact { h with
    get?_hash := hkept h.get?_hash h.admits_hash h.hash_ne_null hjoins.hashType
    get?_range := hkept h.get?_range h.admits_range h.range_ne_null hjoins.rangeType
    get?_id := by rw [Record.get?_restored, h.get?_id]; rfl }

/-- A prepared record that was stored under a key is read as it is prepared. -/
theorem prepareWrite_restored {definition : ModelDefinition} (hproper : definition.IsProper)
    (hresolve : definition.resolve = .ok schema) (hdata : (data.map (·.1)).Nodup)
    (h : schema.prepareWrite fresh data = (.ok id, written)) {own : PrimaryKey}
    (hown : (schema.readKey none).keyOf (Record.toItem written) = .ok own) :
    ∃ id, ∀ again, schema.prepareWrite again written.restored = (.ok id, written.restored) := by
  have hnodup := nodup_prepareWrite hdata h
  obtain ⟨hnone, -⟩ | ⟨rangeKey, hjoins⟩ := hproper.schema_cases hresolve
  · obtain ⟨hread, -⟩ := KeySchema.keyOf_eq_ok_iff.1 hown
    obtain ⟨attr, hattr, htype, -⟩ := KeyAttribute.read_eq_ok_iff.1 hread
    have hget := (get?_toItem written schema.hashKey).symm.trans hattr
    obtain ⟨stored, hstored, rfl⟩ := Option.map_eq_some_iff.1 hget
    have hkept := ScalarType.toJson_toAttribute htype
    -- A generated text was brought to the form of a key where it was read as a date.
    have hadmits : schema.Admits schema.hashKey stored ∧ stored.isNull = false := by
      obtain ⟨hhash, hwritten⟩ := prepareWrite_of_rangeKey_none hnone h
      obtain rfl : schema.coerceDate schema.hashKey id = stored := by
        simpa [hwritten] using hstored
      obtain ⟨-, text, rfl⟩ | ⟨hadmits, hnull⟩ := hashToWrite_eq_ok hhash
      · exact admits_of_coerce (coerce_str_of_admits htype)
      · rw [coerceDate_of_admits hadmits]
        exact ⟨hadmits, hnull⟩
    refine ⟨stored, prepareWrite_of_hash hnone written.nodup_restored ?_ hadmits.2 hadmits.1
      ((hasDatesBut_of_rangeKey_none hnone h).restored hnodup)⟩
    rw [Record.get?_restored, hstored, Option.map_some, hkept]
  · obtain ⟨hash, range, rfl, hwritten⟩ := hjoins.prepareWrite_eq_ok h
    exact ⟨_, hjoins.prepareWrite_of_isWritten (hjoins.isWritten_restored hwritten)
      written.nodup_restored ((hjoins.hasDatesBut hdata h).restored hnodup)⟩

end Schema

namespace TableStorage

variable {storage : TableStorage} {item : Item}

/-- An item that is there already is put in its own place. -/
theorem IsSound.put_eq_self (h : storage.IsSound) (hmem : item ∈ storage.allItems) :
    storage.put item = .ok (some item, storage) := by
  obtain ⟨own, hown, hget⟩ := h.exists_get? hmem
  have hplace : (storage.partition own.partition).insert own.place item =
      storage.partition own.partition :=
    (h.partition own.partition).ascending.insert_eq_self hget
  have hpartition : storage.partitions.get? own.partition =
      some (storage.partition own.partition) := by
    unfold TableStorage.get? at hget
    unfold TableStorage.partition at hget ⊢
    cases hfound : storage.partitions.get? own.partition with
    | none => simp [hfound, OrderedMap.get?] at hget
    | some partition => rfl
  simp [TableStorage.put, hown, hget, hplace, h.ascending.insert_eq_self hpartition]

end TableStorage

namespace MemoryStore

variable {store after : MemoryStore} {name : String} {table : MemoryTable} {item : Item}

theorem Reaches.trans {middle : MemoryStore} (h : store.Reaches middle)
    (h' : middle.Reaches after) :
    store.Reaches after := by
  induction h' with
  | refl => exact h
  | step _ answered ih => exact ih.step answered

/-- An item that is there already is put without a change of the store. -/
theorem putItem_eq_self (hsound : store.IsSound) (hascending : store.tables.IsAscending)
    (htable : store.table name = .ok table) (hmem : item ∈ table.storage.allItems) :
    ∃ answer, store.putItem { table := name, item } = .ok (answer, store) := by
  have hput := (hsound.storage_of_table htable).put_eq_self hmem
  have hset : store.setTable table = store := by
    unfold setTable
    rw [hascending.insert_eq_self (hsound.name_of_table htable ▸ table_eq_ok_iff.1 htable)]
  exact ⟨{}, by simp [putItem, htable, hput, Except.mapError, hset]⟩

end MemoryStore

theorem Schema.IsProvisioned.reaches {schema : Schema} {store after : MemoryStore}
    (h : schema.IsProvisioned store) (hreaches : store.Reaches after) :
    schema.IsProvisioned after := by
  obtain ⟨config, before, answer, made, hbefore, hmade, hafter⟩ := h.made
  exact ⟨config, before, answer, made, hbefore, hmade, hafter.trans hreaches⟩

theorem Schema.IsProvisioned.isAscending {schema : Schema} {store : MemoryStore}
    (h : schema.IsProvisioned store) : store.tables.IsAscending := by
  obtain ⟨config, before, answer, made, hbefore, hmade, hafter⟩ := h.made
  have hcreated : before.answer (.createTable schema.createTable) = .ok (answer, made) := hmade
  exact (hbefore.step hcreated).trans hafter |>.isAscending .nil

namespace Connector

variable {schema : Schema} {store before after : MemoryStore} {fresh : Option String}
  {data record written : Record} {id : Json}

/-- Whether a record stands in the table of its model as it was written. -/
def Stands (schema : Schema) (record : Record) (store : MemoryStore) : Prop :=
  ∃ table, store.table schema.tableName = .ok table ∧
    Record.toItem record ∈ table.storage.allItems

/-- Whether a record stands in a store, and can be read and saved there without any change for as
long as it does. -/
structure StaysWhenSaved (schema : Schema) (record : Record) (store : MemoryStore) : Prop where
  stands : Stands schema record store
  save : ∀ later, store.Reaches later → Stands schema record later →
    (Connector.local.save schema record.restored).run.run later = (.ok record.restored, later)

theorem stands_of_putItem {answer : ItemAnswer} (hsound : before.IsSound)
    (hput : before.putItem { table := schema.tableName, item := Record.toItem record } =
      .ok (answer, after)) : Stands schema record after := by
  obtain ⟨table, replaced, storage, htable, hstored, rfl⟩ := MemoryStore.putItem_eq_ok hput
  obtain ⟨own, -, -, -, hget⟩ := TableStorage.put_eq_ok hstored
  have hstorage := (hsound.storage_of_table htable).put hstored
  refine ⟨{ table with storage }, MemoryStore.table_eq_ok_iff.2
    (MemoryStore.get?_setTable.trans (if_pos (hsound.name_of_table htable).symm)), ?_⟩
  exact (hstorage.get?_eq_some_iff.1 (by simpa using hget own)).1

/-- A prepared record that stands in the table of its model is read and saved without a change. -/
theorem save_restored {definition : ModelDefinition} (hproper : definition.IsProper)
    (hresolve : definition.resolve = .ok schema) (hdata : (data.map (·.1)).Nodup)
    (hprovisioned : schema.IsProvisioned store)
    (hprepare : schema.prepareWrite fresh data = (.ok id, written))
    (hstands : Stands schema written store) :
    (Connector.local.save schema written.restored).run.run store =
      (.ok written.restored, store) := by
  obtain ⟨table, htable, hmem⟩ := hstands
  obtain ⟨found, hfound, hkeySchema⟩ := hprovisioned.exists_table
  obtain rfl : table = found := by simpa [htable] using hfound
  have hsound := hprovisioned.isSound
  obtain ⟨own, hown⟩ := (hsound.storage_of_table htable).exists_keyOf hmem
  rw [hkeySchema] at hown
  obtain ⟨id, hagain⟩ := Schema.prepareWrite_restored hproper hresolve hdata hprepare hown
  obtain ⟨answer, hput⟩ := MemoryStore.putItem_eq_self hsound hprovisioned.isAscending htable hmem
  refine save_eq_ok_iff.2 ⟨id, hagain none, answer, ?_⟩
  rw [Record.restored, Record.toItem_toRecord_toItem]
  exact hput

/-- Preparing is done once, and saving what was read does nothing. A prepared record is prepared
again without a change exactly if its hash key was not generated for a number or a date. A record
that was created or saved stands in the table of its model, and is read and saved there without a
change for as long as it does. -/
theorem saves_again {properties settings : Json} (hdistinct : properties.HasDistinctKeys)
    {name : String} {definition : ModelDefinition}
    (hdefinition : ModelDefinition.ofJson name properties settings = .ok definition)
    {registry registered : Registry} (hdefine : registry.define definition =
      .ok (schema, registered)) (hdata : (data.map (·.1)).Nodup) :
    (∀ fresh id written, schema.prepareWrite fresh data = (.ok id, written) →
      ((∀ again, schema.prepareWrite again written = (.ok id, written)) ↔
        ¬schema.GeneratesNoText data)) ∧
    ∀ before after, schema.IsProvisioned before →
      (∀ fresh id, (Connector.local.create schema fresh data).run.run before = (.ok id, after) →
        StaysWhenSaved schema (schema.prepareWrite (some fresh) data).2 after) ∧
      (∀ written, (Connector.local.save schema data).run.run before = (.ok written, after) →
        StaysWhenSaved schema written after) := by
  have hproper := ModelDefinition.isProper_of_ofJson hdistinct hdefinition
  have hresolve := Registry.resolve_of_define hdefine
  have hstays {before after : MemoryStore} (hprovisioned : schema.IsProvisioned before)
      {fresh : Option String} {id : Json} {written : Record}
      (hprepare : schema.prepareWrite fresh data = (.ok id, written)) {answer : ItemAnswer}
      (hput : before.putItem { table := schema.tableName, item := Record.toItem written } =
        .ok (answer, after)) : StaysWhenSaved schema written after := by
    refine ⟨stands_of_putItem hprovisioned.isSound hput, fun later hlater hstands => ?_⟩
    have hanswer : before.answer (.putItem
        { table := schema.tableName, item := Record.toItem written }) = .ok (answer, after) := hput
    exact save_restored hproper hresolve hdata
      (hprovisioned.reaches ((MemoryStore.Reaches.refl.step hanswer).trans hlater)) hprepare hstands
  refine ⟨fun fresh id written hprepare =>
    Schema.prepareWrite_again_iff hproper hresolve hdata hprepare,
    fun before after hprovisioned => ⟨fun fresh id hcreate => ?_, fun written hsave => ?_⟩⟩
  · obtain ⟨written, hprepare, answer, hput⟩ := create_eq_ok_iff.1 hcreate
    rw [hprepare]
    exact hstays hprovisioned hprepare hput
  · obtain ⟨id, hprepare, answer, hput⟩ := save_eq_ok_iff.1 hsave
    exact hstays hprovisioned hprepare hput

/-- A note whose identifier is generated as text is prepared again without a change, and created,
read and saved without a change of the store. -/
theorem saves_again_note :
    let written : Record := [("text", .str "hello"), ("id", .str "1b4e28ba")]
    let restored : Record := [("id", .str "1b4e28ba"), ("text", .str "hello")]
    DeclaresNotes (generatedKey "String") (notes .string true) ∧
    (∀ again, (notes .string true).prepareWrite again written =
      (.ok (.str "1b4e28ba"), written)) ∧
    ∃ after, (Connector.local.create (notes .string true) "1b4e28ba"
        [("text", .str "hello")]).run.run ((notes .string true).freshStore {}) =
          (.ok (.str "1b4e28ba"), after) ∧
      Stands (notes .string true) written after ∧
      (Connector.local.save (notes .string true) restored).run.run after =
        (.ok restored, after) := by
  obtain ⟨definition, hdefinition, hdefine⟩ :
      DeclaresNotes (generatedKey "String") (notes .string true) := declaresNotes_of_define rfl
  obtain ⟨after, hcreate⟩ : ∃ after, (Connector.local.create (notes .string true) "1b4e28ba"
      [("text", .str "hello")]).run.run ((notes .string true).freshStore {}) =
        (.ok (.str "1b4e28ba"), after) := ⟨_, rfl⟩
  have hdata : (([("text", .str "hello")] : Record).map (·.1)).Nodup := by decide
  obtain ⟨hagain, hsaves⟩ := saves_again
    (hasDistinctKeys_noteProperties (hasDistinctKeys_generatedKey "String")) hdefinition hdefine
    hdata
  have hstays := (hsaves _ _ ((notes .string true).isProvisioned_freshStore {})).1 _ _ hcreate
  have htext : ¬(notes .string true).GeneratesNoText [("text", .str "hello")] := fun h =>
    h.2.elim nofun nofun
  exact ⟨⟨definition, hdefinition, hdefine⟩, (hagain (some "1b4e28ba") _ _ rfl).2 htext, after,
    hcreate, hstays.stands, hstays.save after .refl hstays.stands⟩

/-- A note whose identifier is generated for a number is prepared, but not prepared again. -/
theorem not_prepared_again_note :
    let text := "1b4e28ba-2fa1-4d3b-883f-0016d3cca427"
    let written : Record := [("text", .str "hello"), ("id", .str text)]
    DeclaresNotes (generatedKey "Number") (notes .number true) ∧
    (notes .number true).prepareWrite (some text) [("text", .str "hello")] =
      (.ok (.str text), written) ∧
    ∀ again, (notes .number true).prepareWrite again written =
      (.error (.invalidKey "id" "`1b4e28ba-2fa1-4d3b-883f-0016d3cca427` is not an integer"),
        written) :=
  ⟨declaresNotes_of_define rfl, rfl, fun _ => rfl⟩

end Connector

end KeyedStore
