import KeyedStore.Proofs.Plan.KeyRoles

/-!
# Queries and scans

A filter is read by a query if one of its conditions can select a partition, and by a scan
otherwise. A bare equality selects a partition if its attribute is the hash key of the table or of a
global index. The range key of the table is none of these, even where a global index has it as hash
key: the role in the key of the table comes first.
-/
namespace KeyedStore

namespace Fragment

variable {fragments : List Fragment}

/-- A partition can be selected if there is a condition on a hash key. -/
theorem isSome_hashPlace_iff :
    (hashPlace fragments).isSome ↔ ∃ target, .hash target ∈ fragments.map (·.slot) := by
  constructor
  · intro h
    obtain ⟨i, hplace⟩ := Option.isSome_iff_exists.1 h
    obtain ⟨fragment, target, hget, hslot⟩ := slot_of_hashPlace hplace
    exact ⟨target, List.mem_map.2 ⟨fragment, List.mem_of_getElem? hget, hslot⟩⟩
  · rintro ⟨target, hmem⟩
    obtain ⟨fragment, hmem, hslot⟩ := List.mem_map.1 hmem
    obtain ⟨i, hget⟩ := List.getElem?_of_mem hmem
    rw [hashPlace, choose, Option.isSome_or, Bool.or_eq_true]
    exact .inr (List.getLast?_isSome.2 (List.ne_nil_of_mem
      (mem_places.2 ⟨fragment, hget, by simp [hslot]⟩)))

theorem isSome_hashCondition_iff (placeholders : Placeholders) :
    (select fragments placeholders).hashCondition.isSome ↔
      ∃ target, .hash target ∈ fragments.map (·.slot) := by
  rw [hashCondition_select, ← isSome_hashPlace_iff, conditionAt, Option.isSome_map]
  cases hplace : hashPlace fragments with
  | none => rfl
  | some i =>
    obtain ⟨fragment, -, hget, -⟩ := slot_of_hashPlace hplace
    simp [hget]

end Fragment

namespace Schema

variable {schema : Schema} {filter : Filter} {name : String} {c : String × Condition} {plan : Plan}

/-- Whether the values of an attribute are partitions of the table or of a global index. The role of
the range key of the table is that one only. -/
def IsPartitionKey (schema : Schema) (name : String) : Prop :=
  name = schema.hashKey ∨
    schema.rangeKey ≠ some name ∧ ∃ index ∈ schema.globalIndexes.values, index.hashKey = name

/-- Whether a filter restricts a partition key to a value. -/
def SelectsPartition (schema : Schema) (filter : Filter) : Prop :=
  ∃ name value, (name, .equals value) ∈ filter.conditions ∧ schema.IsPartitionKey name

/-- Global indexes are found under their hash keys. -/
theorem isSome_globalIndex_iff (hsound : schema.HasSoundIndexes) :
    (schema.globalIndexes.get? name).isSome ↔
      ∃ index ∈ schema.globalIndexes.values, index.hashKey = name := by
  obtain ⟨names, hsound⟩ := hsound
  constructor
  · intro h
    obtain ⟨index, hget⟩ := Option.isSome_iff_exists.1 h
    have hmem := OrderedMap.mem_of_get?_eq_some hget
    exact ⟨index, List.mem_map_of_mem hmem, (hsound.isGlobal _ _ hmem).2⟩
  · rintro ⟨index, hmem, rfl⟩
    obtain ⟨⟨key, index⟩, hentry, rfl⟩ := List.mem_map.1 hmem
    rw [(hsound.isGlobal _ _ hentry).2]
    exact OrderedMap.contains_iff.2 (List.mem_map_of_mem hentry)

/-- The partition keys are the attributes with the role of a hash key. -/
theorem exists_role_hash_iff (hsound : schema.HasSoundIndexes) :
    (∃ target, schema.role filter name = .hash target) ↔ schema.IsPartitionKey name := by
  rw [IsPartitionKey, ← isSome_globalIndex_iff hsound]
  unfold role
  by_cases hhash : name = schema.hashKey
  · simp [hhash]
  · by_cases hrange : schema.rangeKey = some name
    · simp [hhash, hrange]
    · simp only [hhash, hrange, if_false, false_or, Ne, not_false_eq_true, true_and]
      cases schema.globalIndexes.get? name with
      | some index => simp
      | none =>
        cases schema.localIndexes.get? name with
        | some index => simp
        | none =>
          dsimp only
          split <;> simp

theorem exists_slot_hash_iff : (∃ target, schema.slot filter c = .hash target) ↔
    (∃ value, c.2 = .equals value) ∧ ∃ target, schema.role filter c.1 = .hash target := by
  obtain ⟨name, condition⟩ := c
  unfold slot
  cases schema.role filter name with
  | plain => simp
  | range index =>
    dsimp only
    split <;> simp
  | hash index => cases condition <;> simp

/-- A filter that is compiled for a query can be run as one if it selects a partition. -/
theorem isSome_hashCondition_iff (hsound : schema.HasSoundIndexes) {selection : Selection}
    (h : schema.compileQuery filter = .ok selection) :
    selection.hashCondition.isSome ↔ schema.SelectsPartition filter := by
  obtain ⟨⟨fragments, after⟩, hrender, h⟩ := bind_eq_ok_iff.1 h
  cases h
  obtain ⟨-, hslots⟩ := renderings_renderFragments Placeholders.isSound_empty hrender
  rw [Fragment.isSome_hashCondition_iff, hslots]
  calc (∃ target, .hash target ∈ filter.conditions.map (schema.slot filter))
      ↔ ∃ c ∈ filter.conditions, ∃ target, schema.slot filter c = .hash target := by
        simp only [List.mem_map]
        exact exists_comm.trans (exists_congr fun c => exists_and_left)
    _ ↔ ∃ c ∈ filter.conditions, (∃ value, c.2 = .equals value) ∧ schema.IsPartitionKey c.1 := by
        simp only [exists_slot_hash_iff, exists_role_hash_iff hsound]
    _ ↔ schema.SelectsPartition filter := by
        constructor
        · rintro ⟨⟨name, _⟩, hmem, ⟨value, rfl⟩, hkey⟩
          exact ⟨name, value, hmem, hkey⟩
        · rintro ⟨name, value, hmem, hkey⟩
          exact ⟨(name, .equals value), hmem, ⟨value, rfl⟩, hkey⟩

/-- A filter is read by a query exactly if it has a bare equality on the hash key of the table, or
on that of a global index which is not the range key of the table, too. Otherwise it is read by a
scan. -/
theorem plan_query_iff {registry after : Registry} {definition : ModelDefinition}
    (hdefine : registry.define definition = .ok (schema, after))
    (hplan : schema.plan filter = .ok plan) :
    ((∃ selection, plan = .query selection) ↔ schema.SelectsPartition filter) ∧
      ((∃ selection, plan = .scan selection) ↔ ¬schema.SelectsPartition filter) := by
  have hsound := ModelDefinition.hasSoundIndexes_of_resolve (Registry.resolve_of_define hdefine)
  obtain ⟨query, hquery, hplan⟩ := bind_eq_ok_iff.1 hplan
  rw [← isSome_hashCondition_iff hsound hquery]
  split at hplan
  case isTrue hhash =>
    cases hplan
    simp [hhash]
  case isFalse hhash =>
    obtain ⟨scan, -, hplan⟩ := bind_eq_ok_iff.1 hplan
    cases hplan
    simp [hhash]

/-- The properties of orders, which have an index by their range key. -/
def numberedProperties : Json := .obj [
  ("customerId", .obj [("type", .str "String"), ("keyType", .str "hash")]),
  ("orderId", .obj [("type", .str "Number"), ("keyType", .str "range"),
    ("index", .obj [("global", .obj [])])]),
  ("id", .obj [("type", .str "String"), ("keyType", .str "pk")])]

def numbered : Schema where
  name := "Order"
  tableName := "Order"
  hashKey := "customerId"
  rangeKey := some "orderId"
  compositeKey := some "id"
  separator := defaultSeparator
  generatesHash := false
  types := [("customerId", .string), ("id", .string), ("orderId", .number)]
  localIndexes := []
  globalIndexes := [("orderId", {
    name := "orderIdGlobalIndex", kind := .globalIndex, hashKey := "orderId", rangeKey := none
    projection := .keysOnly, throughput := some ⟨5, 10⟩ })]
  settings := {}

theorem exists_numbered : ∃ definition,
    ModelDefinition.ofJson "Order" numberedProperties .null = .ok definition ∧
      Registry.define [] definition = .ok (numbered, [("Order", numbered)]) :=
  bind_eq_ok_iff.1 (show (do
    let definition ← ModelDefinition.ofJson "Order" numberedProperties .null
    Registry.define [] definition) = .ok (numbered, [("Order", numbered)]) from rfl)

/-- The orders of a customer are read by a query. -/
theorem plan_customer : ∃ definition plan,
    Registry.define [] definition = .ok (numbered, [("Order", numbered)]) ∧
    numbered.plan { conditions := [("customerId", .equals (.str "ann"))] } = .ok plan ∧
    ∃ selection, plan = .query selection := by
  obtain ⟨definition, -, hdefine⟩ := exists_numbered
  obtain ⟨plan, hplan⟩ : ∃ plan,
      numbered.plan { conditions := [("customerId", .equals (.str "ann"))] } = .ok plan := ⟨_, rfl⟩
  have hselects : numbered.SelectsPartition
      { conditions := [("customerId", .equals (.str "ann"))] } :=
    ⟨"customerId", .str "ann", List.mem_cons_self, .inl rfl⟩
  exact ⟨definition, plan, hdefine, hplan, (plan_query_iff hdefine hplan).1.2 hselects⟩

/-- The orders with a number are scanned for, although there is an index by the number: it is the
range key of the table. -/
theorem plan_number : ∃ definition filter selection,
    ModelDefinition.ofJson "Order" numberedProperties .null = .ok definition ∧
    Registry.define [] definition = .ok (numbered, [("Order", numbered)]) ∧
    Filter.ofJson (.obj [("where", .obj [("orderId", .ofInt 5)])]) = .ok filter ∧
    numbered.plan filter = .ok (.scan selection) ∧
    ∃ name value, (name, .equals value) ∈ filter.conditions ∧
      ∃ index ∈ numbered.globalIndexes.values, index.hashKey = name := by
  obtain ⟨definition, hdefinition, hdefine⟩ := exists_numbered
  exact ⟨definition, _, _, hdefinition, hdefine, rfl, rfl, "orderId", .ofInt 5,
    List.mem_cons_self, _, List.mem_cons_self, rfl⟩

end Schema

end KeyedStore
