import KeyedStore.Proofs.Attribute.RoundTrip
import KeyedStore.Proofs.Connector.Requests
import KeyedStore.Proofs.Key.Identifiers
import KeyedStore.Proofs.Model.Acceptance

/-!
# Accepted records

A record that has been prepared is stored by the table of its model if its keys have the types of
the key attributes. A range key always has, and so has a hash key of a declared role that the record
brings along. A generated hash key is text, though, and an identifier that is promoted to hash key
may be declared as any JSON, which the table takes as text.
-/
namespace KeyedStore

/-- A value of a scalar type is a key value. -/
theorem ScalarType.exists_ofAttribute {type : ScalarType} {value : AttributeValue} (name : String)
    (h : type.admits value) : ∃ key, KeyValue.ofAttribute name value = .ok key := by
  cases value <;> first
    | exact ⟨_, rfl⟩
    | cases type <;> cases h

/-- An attribute is read as part of a key if it has the type of the key. -/
theorem KeyAttribute.exists_read_iff {key : KeyAttribute} {item : Item} :
    (∃ value, key.read item = .ok value) ↔
      ∃ stored, item.get? key.name = some stored ∧ key.type.admits stored := by
  simp only [read_eq_ok_iff]
  constructor
  · rintro ⟨value, stored, hget, hadmits, -⟩
    exact ⟨stored, hget, hadmits⟩
  · rintro ⟨stored, hget, hadmits⟩
    obtain ⟨value, hvalue⟩ := ScalarType.exists_ofAttribute key.name hadmits
    exact ⟨value, stored, hget, hadmits, hvalue⟩

/-- An item has a key if its key attributes have the types of the key. -/
theorem KeySchema.exists_keyOf_iff {schema : KeySchema} {item : Item} :
    (∃ key, schema.keyOf item = .ok key) ↔ ∀ attr ∈ schema.attributes,
      ∃ stored, item.get? attr.name = some stored ∧ attr.type.admits stored := by
  simp only [← KeyAttribute.exists_read_iff, attributes, List.forall_mem_cons, keyOf_eq_ok_iff]
  cases schema.sort with
  | none =>
    constructor
    · rintro ⟨key, hpartition, -⟩
      exact ⟨⟨_, hpartition⟩, List.forall_mem_nil _⟩
    · rintro ⟨⟨partition, hpartition⟩, -⟩
      exact ⟨⟨partition, none⟩, hpartition, rfl⟩
  | some attr =>
    constructor
    · rintro ⟨key, hpartition, value, hread, -⟩
      refine ⟨⟨_, hpartition⟩, ?_⟩
      rintro _ (_ | ⟨_, ⟨⟩⟩)
      exact ⟨value, hread⟩
    · rintro ⟨⟨partition, hpartition⟩, hsort⟩
      obtain ⟨value, hread⟩ := hsort attr (List.mem_singleton_self attr)
      exact ⟨⟨partition, some value⟩, hpartition, value, hread, rfl⟩

/-- An item is stored if it has a key. -/
theorem MemoryStore.exists_putItem_iff {store : MemoryStore} {name : String} {table : MemoryTable}
    {item : Item} (htable : store.table name = .ok table) :
    (∃ result, store.putItem { table := name, item } = .ok result) ↔
      ∃ key, table.storage.keySchema.keyOf item = .ok key := by
  constructor
  · rintro ⟨⟨answer, after⟩, hput⟩
    obtain ⟨found, replaced, storage, hfound, hstored, -⟩ := putItem_eq_ok hput
    obtain rfl : table = found := Except.ok.inj (htable.symm.trans hfound)
    obtain ⟨own, hown, -⟩ := TableStorage.put_eq_ok hstored
    exact ⟨own, hown⟩
  · rintro ⟨key, hkey⟩
    simp [putItem, htable, TableStorage.put, hkey, Except.mapError]

/-- A value of the form of a key has the type in which its attribute is stored. -/
theorem PropertyType.admits_toAttribute {type : PropertyType} {scalar : ScalarType} {value : Json}
    (hscalar : type.scalar? = some scalar) (hadmits : type.admits value)
    (hnull : value.isNull = false) : scalar.admits value.toAttribute := by
  cases value with
  | null => cases hnull
  | bool _ | num _ | str _ | arr _ | obj _ =>
    cases type <;> cases hscalar <;> first
      | cases hadmits; done
      | rfl

namespace Schema

variable {schema : Schema} {fresh : Option String} {data written : Record} {id : Json}

/-- Whether the hash key with which a record is written has the type of the key. -/
structure HashFits (schema : Schema) (fresh : Option String) (data : Record) : Prop where
  /-- A generated hash is no number, and it is a date only if its text is one. -/
  generated : schema.Generates data → ∀ text, fresh = some text →
    schema.type? schema.hashKey ≠ some .number ∧
      (schema.type? schema.hashKey = some .date → (dateToJson? text).isSome)
  /-- A hash that may be any JSON is stored if it is text. -/
  given : schema.type? schema.hashKey = some .json →
    ∀ value, data.get? schema.hashKey = some value → value ≠ .null → ∃ text, value = .str text

/-- A generated hash fits if its text is what its type is stored as. -/
theorem hashFits_generated_iff {type : PropertyType} {text : String}
    (htype : schema.type? schema.hashKey = some type) (hgenerates : schema.Generates data) :
    schema.HashFits (some text) data ↔
      type ≠ .number ∧ (type = .date → (dateToJson? text).isSome) := by
  constructor
  · intro h
    simpa [htype] using h.generated hgenerates text rfl
  · intro h
    refine ⟨fun _ other hother => ?_, fun _ value hvalue hne => ?_⟩
    · obtain rfl := Option.some.inj hother
      simpa [htype] using h
    · exact absurd (hgenerates.2 value hvalue) hne

/-- A hash that is given fits unless it is some JSON other than text. -/
theorem hashFits_given_iff {type : PropertyType} {raw : Json}
    (htype : schema.type? schema.hashKey = some type)
    (hget : data.get? schema.hashKey = some raw) (hne : raw ≠ .null) :
    schema.HashFits fresh data ↔ (type = .json → ∃ text, raw = .str text) := by
  constructor
  · rintro h rfl
    exact h.given htype raw hget hne
  · intro h
    refine ⟨fun hgenerates => absurd (hgenerates.2 raw hget) hne, fun hjson value hvalue _ => ?_⟩
    obtain rfl : raw = value := Option.some.inj (hget.symm.trans hvalue)
    exact h (Option.some.inj (htype.symm.trans hjson))

/-- The hash key of a record without a range key fits exactly if what is written has the type of
the key. -/
theorem hashFits_iff {type : PropertyType} (htype : schema.type? schema.hashKey = some type)
    (hhash : schema.hashToWrite fresh data = .ok id) : schema.HashFits fresh data ↔
      (schema.scalarType schema.hashKey).admits
        (schema.coerceDate schema.hashKey id).toAttribute := by
  have hscalar : schema.scalarType schema.hashKey = type.scalar?.getD .string := by
    simp [scalarType, htype]
  rw [hscalar]
  rcases hashToWrite_eq_ok_iff.1 hhash with
    ⟨hgenerates, text, rfl, rfl⟩ | ⟨raw, hget, hne, hcoerce⟩
  · have hwritten : schema.coerceDate schema.hashKey (.str text) =
        if type = .date then (dateToJson? text).getD (.str text) else .str text := by
      unfold coerceDate
      rw [htype]
      cases type <;> rfl
    rw [hashFits_generated_iff htype hgenerates, hwritten]
    cases type with
    | string | boolean | json => exact iff_of_true ⟨nofun, nofun⟩ rfl
    | number => exact iff_of_false (fun h => h.1 rfl) nofun
    | date =>
      rw [if_pos rfl]
      cases hdate : dateToJson? text with
      | none => exact iff_of_false (fun h => nomatch h.2 rfl) nofun
      | some json =>
        obtain ⟨n, -, rfl⟩ := Option.map_eq_some_iff.1 hdate
        exact iff_of_true ⟨nofun, fun _ => rfl⟩ rfl
  · obtain ⟨hadmits, hnull⟩ := admits_of_coerce hcoerce
    rw [hashFits_given_iff htype hget hne, coerceDate_of_admits hadmits]
    cases hsome : type.scalar? with
    | some scalar =>
      refine iff_of_true (fun hjson => by simp [hjson, PropertyType.scalar?] at hsome) ?_
      exact PropertyType.admits_toAttribute hsome (hadmits type htype)
        (hnull.trans (isNull_eq_false hne))
    | none =>
      obtain rfl : type = .json := by cases type <;> first | rfl | cases hsome
      obtain rfl : raw = id := by
        simp only [coerce, htype] at hcoerce
        cases raw <;> cases hcoerce <;> rfl
      cases raw <;> simp [Json.toAttribute, ScalarType.admits]

/-- A record that joins a hash and a range always fits. -/
theorem JoinsKeys.hashFits {rangeKey : String} (hjoins : schema.JoinsKeys rangeKey)
    (fresh : Option String) (data : Record) : schema.HashFits fresh data := by
  obtain ⟨type, htype, hscalar⟩ := hjoins.hashType
  refine ⟨fun hgenerates => ?_, fun hjson => ?_⟩
  · simp [Generates, hjoins.generatesHash] at hgenerates
  · obtain rfl : type = .json := Option.some.inj (htype.symm.trans hjson)
    cases hscalar

/-- A prepared record has a key in its table exactly if its hash key fits. -/
theorem exists_keyOf_iff_hashFits {definition : ModelDefinition} (hproper : definition.IsProper)
    (hresolve : definition.resolve = .ok schema)
    (hprepare : schema.prepareWrite fresh data = (.ok id, written)) :
    (∃ key, (schema.readKey none).keyOf (Record.toItem written) = .ok key) ↔
      schema.HashFits fresh data := by
  rw [KeySchema.exists_keyOf_iff]
  obtain ⟨hnone, -⟩ | ⟨rangeKey, hjoins⟩ := hproper.schema_cases hresolve
  · obtain ⟨type, htype⟩ := Option.isSome_iff_exists.1
      (ModelDefinition.isSome_hashType hproper.nodup hresolve)
    obtain ⟨hhash, hwritten⟩ := prepareWrite_of_rangeKey_none hnone hprepare
    rw [hashFits_iff htype hhash]
    simp [readKey, keySchema, KeySchema.attributes, hnone, get?_toItem, hwritten]
  · refine iff_of_true ?_ (hjoins.hashFits fresh data)
    obtain ⟨hash, range, -, hwritten⟩ := hjoins.prepareWrite_eq_ok hprepare
    have hfits {name : String} {value : Json} (hget : written.get? name = some value)
        (hadmits : schema.Admits name value) (hnull : value.isNull = false)
        (htype : ∃ type, schema.type? name = some type ∧ type.scalar?.isSome) :
        ∃ stored, OrderedMap.get? (Record.toItem written) name = some stored ∧
          (schema.scalarType name).admits stored := by
      obtain ⟨type, htype, hsome⟩ := htype
      obtain ⟨scalar, hscalar⟩ := Option.isSome_iff_exists.1 hsome
      refine ⟨value.toAttribute, by simp [get?_toItem, hget], ?_⟩
      simpa [scalarType, htype, hscalar] using
        PropertyType.admits_toAttribute hscalar (hadmits type htype) hnull
    simp only [readKey, keySchema, KeySchema.attributes, hjoins.rangeKey, Option.map_some,
      Option.toList_some, List.forall_mem_cons]
    exact ⟨hfits hwritten.get?_hash hwritten.admits_hash hwritten.hash_ne_null hjoins.hashType,
      hfits hwritten.get?_range hwritten.admits_range hwritten.range_ne_null hjoins.rangeType,
      List.forall_mem_nil _⟩

end Schema

namespace Connector

variable {schema : Schema} {fresh : Option String} {data : Record} {store : MemoryStore}

/-- A record that cannot be prepared is not written, and the store is not asked. -/
theorem write_of_error {σ : Type} (connector : Connector σ) {error : ValidationError}
    (h : (schema.prepareWrite fresh data).1 = .error error) (state : σ) :
    (connector.write schema fresh data).run.run state =
      (.error (.failed (.validation error)), state) := by
  unfold Connector.write
  rcases hprepare : schema.prepareWrite fresh data with ⟨result, written⟩
  obtain rfl : result = .error error := by simpa [hprepare] using h
  rfl

/-- Whether an operation fails on a store only because what it is given is not valid. It fails in
this way before any request: over every service, and without a change of its state. -/
def FailsUnasked {α : Type} (operation : (σ : Type) → Connector σ → Operation σ α)
    (store : MemoryStore) : Prop :=
  ∀ interruption after,
    (operation MemoryStore Connector.local).run.run store = (.error interruption, after) →
    ∃ error, interruption = .failed (.validation error) ∧
      ∀ (σ : Type) (connector : Connector σ) (state : σ),
        (operation σ connector).run.run state = (.error (.failed (.validation error)), state)

theorem FailsUnasked.map {α β : Type} {operation : (σ : Type) → Connector σ → Operation σ α}
    (h : FailsUnasked operation store) (f : α → β) :
    FailsUnasked (fun σ connector => f <$> operation σ connector) store := by
  intro interruption after hrun
  obtain ⟨error, hfailed, hunasked⟩ := h interruption after (Operation.map_eq_error_iff.1 hrun)
  exact ⟨error, hfailed, fun σ connector state =>
    Operation.map_eq_error_iff.2 (hunasked σ connector state)⟩

/-- A record that is stored where it can be prepared is written unless it is not valid. -/
theorem failsUnasked_write (h : ∀ id written, schema.prepareWrite fresh data = (.ok id, written) →
      ∃ result, store.putItem
        { table := schema.tableName, item := Record.toItem written } = .ok result) :
    FailsUnasked (fun _ connector => connector.write schema fresh data) store := by
  intro interruption after hwrite
  rcases hprepare : schema.prepareWrite fresh data with ⟨error | id, written⟩
  · have hunasked {σ : Type} (connector : Connector σ) (state : σ) :=
      write_of_error connector (congrArg Prod.fst hprepare) state
    have hfailed := (Prod.ext_iff.1 (hwrite.symm.trans (hunasked Connector.local store))).1
    exact ⟨error, Except.error.inj hfailed, fun _ => hunasked⟩
  · obtain ⟨⟨answer, stored⟩, hput⟩ := h id written hprepare
    have hwritten := write_eq_ok_iff.2 ⟨hprepare, answer, hput⟩
    exact nomatch (Prod.ext_iff.1 (hwrite.symm.trans hwritten)).1

/-- A prepared record is stored by the table of its model exactly if its hash key fits. If it does,
creating and saving the record fail only where it is not valid, before the store is asked. -/
theorem stores_prepared_iff {properties settings : Json} (hdistinct : properties.HasDistinctKeys)
    {name : String} {definition : ModelDefinition}
    (hdefinition : ModelDefinition.ofJson name properties settings = .ok definition)
    {registry registered : Registry} (hdefine : registry.define definition =
      .ok (schema, registered)) (hprovisioned : schema.IsProvisioned store) (data : Record) :
    (∀ fresh id written, schema.prepareWrite fresh data = (.ok id, written) →
      ((∃ result, store.putItem
        { table := schema.tableName, item := Record.toItem written } = .ok result) ↔
          schema.HashFits fresh data)) ∧
    (∀ fresh, schema.HashFits (some fresh) data →
      FailsUnasked (fun _ connector => connector.create schema fresh data) store) ∧
    (schema.HashFits none data →
      FailsUnasked (fun _ connector => connector.save schema data) store) := by
  have hproper := ModelDefinition.isProper_of_ofJson hdistinct hdefinition
  have hresolve := Registry.resolve_of_define hdefine
  obtain ⟨table, htable, hkeySchema⟩ := hprovisioned.exists_table
  have hstored {fresh : Option String} {id : Json} {written : Record}
      (hprepare : schema.prepareWrite fresh data = (.ok id, written)) :
      (∃ result, store.putItem
        { table := schema.tableName, item := Record.toItem written } = .ok result) ↔
          schema.HashFits fresh data := by
    rw [MemoryStore.exists_putItem_iff htable, hkeySchema]
    exact Schema.exists_keyOf_iff_hashFits hproper hresolve hprepare
  refine ⟨fun fresh id written => hstored, fun fresh hfits => ?_, fun hfits => ?_⟩
  · exact (failsUnasked_write fun id written hprepare => (hstored hprepare).2 hfits).map (·.1)
  · exact (failsUnasked_write fun id written hprepare => (hstored hprepare).2 hfits).map (·.2)

def noteProperties (identifier : Json) : Json :=
  .obj [("id", identifier), ("text", .str "String")]

/-- A declared hash key that is generated. -/
def generatedKey (type : String) : Json :=
  .obj [("type", .str type), ("keyType", .str "hash"), ("uuid", .bool true)]

def notes (type : PropertyType) (generatesHash : Bool) : Schema where
  name := "Note"
  tableName := "Note"
  hashKey := "id"
  rangeKey := none
  compositeKey := none
  separator := defaultSeparator
  generatesHash := generatesHash
  types := [("id", type), ("text", .string)]
  localIndexes := []
  globalIndexes := []
  settings := {}

theorem hasDistinctKeys_noteProperties {identifier : Json} (h : identifier.HasDistinctKeys) :
    (noteProperties identifier).HasDistinctKeys := by
  refine .obj (by simp) ?_
  simp only [List.forall_mem_cons]
  exact ⟨h, .str _, nofun⟩

theorem hasDistinctKeys_generatedKey (type : String) : (generatedKey type).HasDistinctKeys := by
  refine .obj (by simp) ?_
  simp only [List.forall_mem_cons]
  exact ⟨.str _, .str _, .bool _, nofun⟩

/-- Whether notes with some declaration of their identifier have a schema. -/
def DeclaresNotes (identifier : Json) (schema : Schema) : Prop :=
  ∃ definition, ModelDefinition.ofJson "Note" (noteProperties identifier) .null = .ok definition ∧
    Registry.define [] definition = .ok (schema, [("Note", schema)])

theorem declaresNotes_of_define {identifier : Json} {schema : Schema} (h : (do
      let definition ← ModelDefinition.ofJson "Note" (noteProperties identifier) .null
      Registry.define [] definition) = .ok (schema, [("Note", schema)])) :
    DeclaresNotes identifier schema :=
  bind_eq_ok_iff.1 h

/-- A note whose text identifier is generated is stored, and creating it fails only where it is not
valid. -/
theorem stores_note :
    let store := (notes .string true).freshStore {}
    DeclaresNotes (generatedKey "String") (notes .string true) ∧
    (notes .string true).prepareWrite (some "1b4e28ba") [("text", .str "hello")] =
      (.ok (.str "1b4e28ba"), [("text", .str "hello"), ("id", .str "1b4e28ba")]) ∧
    (∃ result, store.putItem
      { table := "Note", item := Record.toItem [("text", .str "hello"), ("id", .str "1b4e28ba")] } =
        .ok result) ∧
    FailsUnasked (fun _ connector =>
      connector.create (notes .string true) "1b4e28ba" [("text", .str "hello")]) store := by
  obtain ⟨definition, hdefinition, hdefine⟩ :
      DeclaresNotes (generatedKey "String") (notes .string true) := declaresNotes_of_define rfl
  have hprepare : (notes .string true).prepareWrite (some "1b4e28ba") [("text", .str "hello")] =
      (.ok (.str "1b4e28ba"), [("text", .str "hello"), ("id", .str "1b4e28ba")]) := rfl
  have hfits : (notes .string true).HashFits (some "1b4e28ba") [("text", .str "hello")] :=
    ⟨fun _ _ _ => ⟨nofun, nofun⟩, nofun⟩
  obtain ⟨hstores, hcreates, -⟩ := stores_prepared_iff
    (hasDistinctKeys_noteProperties (hasDistinctKeys_generatedKey "String")) hdefinition hdefine
    ((notes .string true).isProvisioned_freshStore {}) [("text", .str "hello")]
  exact ⟨⟨definition, hdefinition, hdefine⟩, hprepare, (hstores _ _ _ hprepare).2 hfits,
    hcreates _ hfits⟩

/-- Whether a record can be prepared, but is not accepted by the table of its model. -/
def Refuses (schema : Schema) (fresh : String) (data : Record) : Prop :=
  ∃ id written error after, schema.prepareWrite (some fresh) data = (.ok id, written) ∧
    (schema.freshStore {}).putItem { table := schema.tableName, item := Record.toItem written } =
      .error error ∧
    (Connector.local.create schema fresh data).run.run (schema.freshStore {}) =
      (.error (.failed (.store error)), after)

/-- A number is not stored as an identifier that may be any JSON, and the text of a generated one
not as a number. -/
theorem notes_refused :
    (DeclaresNotes (.str "Json") (notes .json false) ∧
      Refuses (notes .json false) "1b4e28ba" [("id", .ofInt 5), ("text", .str "hello")]) ∧
    DeclaresNotes (generatedKey "Number") (notes .number true) ∧
      Refuses (notes .number true) "1b4e28ba" [("text", .str "hello")] :=
  ⟨⟨declaresNotes_of_define rfl, _, _, _, _, rfl, rfl, rfl⟩, declaresNotes_of_define rfl,
    _, _, _, _, rfl, rfl, rfl⟩

end Connector

end KeyedStore
