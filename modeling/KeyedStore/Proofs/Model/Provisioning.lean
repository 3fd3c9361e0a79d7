import KeyedStore.Memory.Table
import KeyedStore.Proofs.Model.Resolution

/-!
# Provisioned tables

The request for the table of a schema defines every key attribute that the table and its indexes
use, so the table is made, and each index is found by its name with the key that it declares.
-/
namespace KeyedStore

/-- Of values with distinct names the one with a name is found. -/
theorem find?_eq_some_of_nodup {α : Type} {name : α → String} {xs : List α} {x : α}
    (hnodup : (xs.map name).Nodup) (hmem : x ∈ xs) : xs.find? (name · == name x) = some x := by
  induction xs with
  | nil => cases hmem
  | cons first rest ih =>
    obtain ⟨hfirst, hrest⟩ := List.nodup_cons.1 hnodup
    rcases List.mem_cons.1 hmem with rfl | hmem
    · simp
    · have hne : name first ≠ name x := fun heq => hfirst (heq ▸ List.mem_map_of_mem hmem)
      rw [List.find?_cons_of_neg (by simpa using hne), ih hrest hmem]

namespace Schema

/-- The key that a hash attribute and a range attribute make, with the types of the schema. -/
def keySchema (schema : Schema) (hash : String) (range : Option String) : KeySchema where
  partition := ⟨hash, schema.scalarType hash⟩
  sort := range.map fun name => ⟨name, schema.scalarType name⟩

/-- The key by which an index, or the table itself, is read. -/
def readKey (schema : Schema) : Option Index → KeySchema
  | none => schema.keySchema schema.hashKey schema.rangeKey
  | some index => schema.keySchema index.hashKey index.rangeKey

variable {schema : Schema} {name hash : String} {range : Option String} {index : Index}

/-- A key attribute is defined with its type. -/
theorem resolve_createTable (hmem : name ∈ schema.keyAttributes) (part : KeyPart) :
    KeyAttribute.resolve schema.createTable.definitions ⟨name, part⟩ =
      .ok ⟨name, schema.scalarType name⟩ := by
  have hfind : schema.keyAttributes.eraseDups.find? (· == name) = some name := by
    cases hfound : schema.keyAttributes.eraseDups.find? (· == name) with
    | none => simpa using List.find?_eq_none.1 hfound name (List.mem_eraseDups.2 hmem)
    | some other =>
      have hother := List.find?_some hfound
      rw [eq_of_beq hother]
  have hdefinition : schema.createTable.definitions.find? (·.name == name) =
      some ⟨name, schema.scalarType name⟩ := by
    show List.find? _ (List.map _ _) = _
    rw [List.find?_map]
    exact congrArg (Option.map _) hfind
  simp [KeyAttribute.resolve, hdefinition]

theorem ofElements_createTable (hhash : hash ∈ schema.keyAttributes)
    (hrange : ∀ name, range = some name → name ∈ schema.keyAttributes) :
    KeySchema.ofElements (keyElements hash range) schema.createTable.definitions =
      .ok (schema.keySchema hash range) := by
  cases range with
  | none => simp [KeySchema.ofElements, keyElements, keySchema, resolve_createTable hhash]
  | some name =>
    simp [KeySchema.ofElements, keyElements, keySchema, resolve_createTable hhash,
      resolve_createTable (hrange name rfl)]

theorem mem_keyAttributes_of_mem_indexes (hindex : index ∈ schema.indexes)
    (hname : name ∈ index.keyAttributes) : name ∈ schema.keyAttributes := by
  unfold keyAttributes
  rcases List.mem_append.1 hindex with hindex | hindex
  · exact List.mem_append_left _
      (List.mem_append_right _ (List.mem_flatMap.2 ⟨index, hindex, hname⟩))
  · exact List.mem_append_right _ (List.mem_flatMap.2 ⟨index, hindex, hname⟩)

/-- The key of an index is resolved. -/
theorem ofElements_of_mem_indexes (hindex : index ∈ schema.indexes) :
    KeySchema.ofElements (keyElements index.hashKey index.rangeKey)
      schema.createTable.definitions = .ok (schema.readKey index) := by
  have hkey (name : String) (hname : name ∈ index.keyAttributes) : name ∈ schema.keyAttributes :=
    mem_keyAttributes_of_mem_indexes hindex hname
  exact ofElements_createTable (hkey _ (by simp [Index.keyAttributes]))
    fun name hname => hkey name (by simp [Index.keyAttributes, hname])

/-- The table of a schema when it has just been made. -/
def provisioned (schema : Schema) (polls : Nat) : MemoryTable where
  name := schema.tableName
  pendingPolls := polls
  keyElements := schema.createTable.keyElements
  definitions := schema.createTable.definitions
  throughput := schema.createTable.throughput
  globalIndexes := schema.createTable.globalIndexes
  localIndexes := schema.createTable.localIndexes
  storage := { keySchema := schema.readKey none }

/-- The request for the table of a schema is granted. -/
theorem ofRequest_createTable (schema : Schema) (polls : Nat) :
    MemoryTable.ofRequest schema.createTable polls = .ok (schema.provisioned polls) := by
  have htable : KeySchema.ofElements schema.createTable.keyElements
      schema.createTable.definitions = .ok (schema.readKey none) :=
    ofElements_createTable (by simp [keyAttributes])
      fun name hname => by simp [keyAttributes, hname]
  have hindexes : ∀ elements ∈ schema.createTable.globalIndexes.map (·.keyElements) ++
      schema.createTable.localIndexes.map (·.keyElements),
      ∃ keys, KeySchema.ofElements elements schema.createTable.definitions = .ok keys := by
    have hindex (index : Index) (hmem : index ∈ schema.indexes) :
        ∃ keys, KeySchema.ofElements (keyElements index.hashKey index.rangeKey)
          schema.createTable.definitions = .ok keys := ⟨_, ofElements_of_mem_indexes hmem⟩
    simp only [List.mem_append, createTable, List.map_map, List.mem_map]
    rintro elements (⟨index, hmem, rfl⟩ | ⟨index, hmem, rfl⟩)
    · exact hindex index (List.mem_append_right _ hmem)
    · exact hindex index (List.mem_append_left _ hmem)
  have hall := forM_void_eq_ok_iff.2 hindexes
  simp only [MemoryTable.ofRequest, htable, ok_bind, hall]
  rfl

/-- An index is read by the key that it declares. -/
theorem indexSchema_provisioned (hsound : schema.HasSoundIndexes)
    (hindex : index ∈ schema.indexes) (polls : Nat) :
    (schema.provisioned polls).indexSchema index.name = .ok (schema.readKey index) := by
  obtain ⟨names, hsound⟩ := hsound
  have hnodup : (schema.localIndexes.values.map (·.name) ++
      schema.globalIndexes.values.map (·.name)).Nodup := by
    rw [← List.map_append]
    exact hsound.nodup
  obtain ⟨hlocals, hglobals, hdisjoint⟩ := List.nodup_append.1 hnodup
  have hkeys := ofElements_of_mem_indexes hindex
  have hglobal : (schema.provisioned polls).globalIndexes =
      schema.globalIndexes.values.map Index.toGlobal := rfl
  have hlocal : (schema.provisioned polls).localIndexes =
      schema.localIndexes.values.map Index.toLocal := rfl
  unfold MemoryTable.indexSchema
  rw [hglobal, hlocal, List.find?_map, List.find?_map]
  rcases List.mem_append.1 hindex with hmem | hmem
  · have hnone : schema.globalIndexes.values.find? (·.name == index.name) = none := by
      refine List.find?_eq_none.2 fun other hother heq => ?_
      exact hdisjoint _ (List.mem_map_of_mem hmem) _ (List.mem_map_of_mem hother)
        (eq_of_beq heq).symm
    have hfind := find?_eq_some_of_nodup hlocals hmem
    simp only [Function.comp_def, Index.toGlobal, Index.toLocal, hnone, hfind, Option.map_none,
      Option.map_some, Option.none_or]
    exact mapError_eq_ok_iff.2 hkeys
  · have hfind := find?_eq_some_of_nodup hglobals hmem
    simp only [Function.comp_def, Index.toGlobal, hfind, Option.map_some, Option.some_or]
    exact mapError_eq_ok_iff.2 hkeys

/-- The table and its indexes are read by the keys that the schema has for them. -/
theorem keySchemaFor_provisioned (hsound : schema.HasSoundIndexes) {target : Option Index}
    (htarget : ∀ index, target = some index → index ∈ schema.indexes) (polls : Nat) :
    (schema.provisioned polls).keySchemaFor (target.map (·.name)) =
      .ok (schema.readKey target) := by
  cases target with
  | none => rfl
  | some index => exact indexSchema_provisioned hsound (htarget index rfl) polls

end Schema

end KeyedStore
