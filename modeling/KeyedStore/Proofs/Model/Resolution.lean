import KeyedStore.Model.Registry
import KeyedStore.Proofs.Except
import KeyedStore.Proofs.OrderedMap
import Mathlib.Data.List.Nodup

/-!
# Resolved schemas

What a definition resolves to: each index stands under the attribute that declares it, no two
indexes have the same name, and an attribute has the type of its last declaration.
-/
namespace KeyedStore

namespace ModelDefinition

/-- The type with which an attribute is declared, by its last declaration if there are several. -/
def declaredType? (definition : ModelDefinition) (name : String) : Option PropertyType :=
  (definition.properties.reverse.find? (·.name == name)).map (·.type)

/-- The type in which a key attribute is to be stored: that of its declaration, text where that is
not scalar. -/
def keyType (definition : ModelDefinition) (name : String) : ScalarType :=
  ((definition.declaredType? name).bind PropertyType.scalar?).getD .string

end ModelDefinition

namespace Schema

/-- The indexes of a schema. -/
def indexes (schema : Schema) : List Index :=
  schema.localIndexes.values ++ schema.globalIndexes.values

end Schema

namespace IndexTable

/-- The indexes that have been declared. -/
def indexes (table : IndexTable) : List Index :=
  table.localIndexes.values ++ table.globalIndexes.values

/-- Whether each index stands under the attribute that declares it, with a name of its own that is
taken. -/
structure IsSound (hashKey : String) (table : IndexTable) : Prop where
  localAscending : table.localIndexes.IsAscending
  globalAscending : table.globalIndexes.IsAscending
  isLocal : ∀ name index, (name, index) ∈ table.localIndexes →
    index.kind = .localIndex ∧ index.hashKey = hashKey ∧ index.rangeKey = some name
  isGlobal : ∀ name index, (name, index) ∈ table.globalIndexes →
    index.kind = .globalIndex ∧ index.hashKey = name
  nodup : (table.indexes.map (·.name)).Nodup
  taken : ∀ index ∈ table.indexes, index.name ∈ table.names

variable {model hashKey name : String} {table after : IndexTable} {property : Property}

theorem isSound_empty (hashKey : String) : IsSound hashKey {} where
  localAscending := .nil
  globalAscending := .nil
  isLocal := by simp
  isGlobal := by simp
  nodup := by simp [indexes, OrderedMap.values]
  taken := by simp [indexes, OrderedMap.values]

theorem take_eq_ok (h : take model name table = .ok after) :
    name ∉ table.names ∧ after = { table with names := table.names ++ [name] } := by
  unfold take at h
  split at h
  · cases h
  · rename_i hfree
    cases h
    exact ⟨by simpa using hfree, rfl⟩

/-- An index with a free name can take the place of others. -/
theorem IsSound.nodup_of_perm (h : table.IsSound hashKey) {index : Index}
    {kept indexes : List Index} (hfree : index.name ∉ table.names)
    (hkept : kept.Sublist table.indexes) (hperm : indexes.Perm (index :: kept)) :
    (indexes.map (·.name)).Nodup ∧
      ∀ other ∈ indexes, other.name ∈ table.names ++ [index.name] := by
  have hold : ∀ other ∈ kept, other.name ∈ table.names := fun other hmem =>
    h.taken other (hkept.subset hmem)
  constructor
  · refine ((hperm.map (·.name)).nodup_iff).2 (List.nodup_cons.2 ⟨fun hmem => ?_, ?_⟩)
    · obtain ⟨other, hother, heq⟩ := List.mem_map.1 hmem
      exact hfree (heq.symm ▸ hold other hother :)
    · exact h.nodup.sublist (hkept.map _)
  · intro other hmem
    rw [List.mem_append]
    rcases List.mem_cons.1 (hperm.mem_iff.1 hmem) with rfl | hmem
    · exact .inr List.mem_cons_self
    · exact .inl (hold other hmem)

/-- Adding a local index takes a free name for it. -/
theorem addLocal_eq_ok (h : addLocal model hashKey table property = .ok after) : after = table ∨
    ∃ index : Index, index.kind = .localIndex ∧ index.hashKey = hashKey ∧
      index.rangeKey = some property.name ∧ index.name ∉ table.names ∧ after = {
        names := table.names ++ [index.name]
        localIndexes := table.localIndexes.insert property.name index
        globalIndexes := table.globalIndexes } := by
  unfold addLocal at h
  split at h
  case h_1 =>
    cases h
    exact .inl rfl
  case h_2 declared _ =>
    obtain ⟨taken, htake, h⟩ := bind_eq_ok_iff.1 h
    obtain ⟨hfree, rfl⟩ := take_eq_ok htake
    cases h
    exact .inr ⟨{
      name := declared.name.getD (property.name ++ "LocalIndex"), kind := .localIndex, hashKey
      rangeKey := some property.name, projection := declared.projection, throughput := none },
      rfl, rfl, rfl, hfree, rfl⟩

/-- Adding a global index takes its name, whatever its range key. -/
theorem addGlobal_eq_ok {types : OrderedMap String PropertyType}
    (h : addGlobal model types table property = .ok after) : after = table ∨
      ∃ index : Index, index.kind = .globalIndex ∧ index.hashKey = property.name ∧
        index.name ∉ table.names ∧ after = {
          names := table.names ++ [index.name]
          localIndexes := table.localIndexes
          globalIndexes := table.globalIndexes.insert property.name index } := by
  unfold addGlobal at h
  split at h
  case h_1 =>
    cases h
    exact .inl rfl
  case h_2 declared _ =>
    let name := declared.name.getD (property.name ++ "GlobalIndex")
    let index : Index := {
      name, kind := .globalIndex, hashKey := property.name, rangeKey := declared.rangeKey
      projection := declared.projection, throughput := some declared.throughput }
    have htaken : (take model name table >>= fun taken => .ok { taken with
        globalIndexes := taken.globalIndexes.insert property.name index }) = .ok after := by
      split at h
      · split at h
        · cases h
        · exact h
      · exact h
    obtain ⟨taken, htake, htaken⟩ := bind_eq_ok_iff.1 htaken
    obtain ⟨hfree, rfl⟩ := take_eq_ok htake
    cases htaken
    exact .inr ⟨index, rfl, rfl, hfree, rfl⟩

theorem IsSound.addLocal (h : table.IsSound hashKey)
    (hadd : addLocal model hashKey table property = .ok after) : after.IsSound hashKey := by
  rcases addLocal_eq_ok hadd with rfl | ⟨index, hkind, hhash, hrange, hfree, rfl⟩
  · exact h
  · have hkept : (table.localIndexes.erase property.name).values.Sublist
        table.localIndexes.values := List.filter_sublist.map _
    obtain ⟨hnodup, htaken⟩ := h.nodup_of_perm hfree (hkept.append_right _)
      (h.localAscending.values_insert_perm.append_right _)
    refine ⟨h.localAscending.insert, h.globalAscending, fun name other hmem => ?_, h.isGlobal,
      hnodup, htaken⟩
    rcases h.localAscending.mem_insert hmem with ⟨hname, rfl⟩ | hmem
    · obtain rfl := Std.LawfulEqCmp.eq_of_compare hname
      exact ⟨hkind, hhash, hrange⟩
    · exact h.isLocal name other hmem

theorem IsSound.addGlobal {types : OrderedMap String PropertyType} (h : table.IsSound hashKey)
    (hadd : addGlobal model types table property = .ok after) : after.IsSound hashKey := by
  rcases addGlobal_eq_ok hadd with rfl | ⟨index, hkind, hhash, hfree, rfl⟩
  · exact h
  · have hkept : (table.globalIndexes.erase property.name).values.Sublist
        table.globalIndexes.values := List.filter_sublist.map _
    obtain ⟨hnodup, htaken⟩ := h.nodup_of_perm hfree (hkept.append_left _)
      ((h.globalAscending.values_insert_perm.append_left _).trans List.perm_middle)
    refine ⟨h.localAscending, h.globalAscending.insert, h.isLocal, fun name other hmem => ?_,
      hnodup, htaken⟩
    rcases h.globalAscending.mem_insert hmem with ⟨hname, rfl⟩ | hmem
    · obtain rfl := Std.LawfulEqCmp.eq_of_compare hname
      exact ⟨hkind, hhash⟩
    · exact h.isGlobal name other hmem

theorem IsSound.foldlM {types : OrderedMap String PropertyType} {properties : List Property}
    (h : table.IsSound hashKey)
    (hfold : properties.foldlM (fun table property => do
      IndexTable.addGlobal model types
        (← IndexTable.addLocal model hashKey table property) property) table = .ok after) :
    after.IsSound hashKey := by
  induction properties generalizing table with
  | nil =>
    cases hfold
    exact h
  | cons property rest ih =>
    rw [List.foldlM_cons] at hfold
    obtain ⟨next, hstep, hfold⟩ := bind_eq_ok_iff.1 hfold
    obtain ⟨between, hlocal, hglobal⟩ := bind_eq_ok_iff.1 hstep
    exact ih ((h.addLocal hlocal).addGlobal hglobal) hfold

end IndexTable

namespace Schema

/-- Whether the indexes of a schema stand under the attributes that declare them, no two of them
with the same name. -/
def HasSoundIndexes (schema : Schema) : Prop :=
  ∃ names, IndexTable.IsSound schema.hashKey ⟨names, schema.localIndexes, schema.globalIndexes⟩

end Schema

namespace ModelDefinition

variable {definition : ModelDefinition} {schema : Schema}

/-- A definition resolves if the key roles and the indexes do. -/
theorem resolve_eq_ok (h : definition.resolve = .ok schema) : ∃ claims indexes,
    KeyClaims.ofProperties definition.name definition.properties = .ok claims ∧
    IndexTable.ofProperties definition.name (resolveHash claims definition.properties).1
      (resolveHash claims definition.properties).2.2 definition.properties = .ok indexes ∧
    schema = {
      name := definition.name
      tableName := definition.settings.table.getD definition.name
      hashKey := (resolveHash claims definition.properties).1
      rangeKey := claims.range
      compositeKey := claims.primary
      separator := claims.separator.getD defaultSeparator
      generatesHash := (resolveHash claims definition.properties).2.1
      types := (resolveHash claims definition.properties).2.2
      localIndexes := indexes.localIndexes
      globalIndexes := indexes.globalIndexes
      settings := definition.settings } := by
  obtain ⟨claims, hclaims, h⟩ := bind_eq_ok_iff.1 h
  obtain ⟨indexes, hindexes, h⟩ := bind_eq_ok_iff.1 h
  exact ⟨claims, indexes, hclaims, hindexes, (Except.ok.inj h).symm⟩

theorem hasSoundIndexes_of_resolve (h : definition.resolve = .ok schema) :
    schema.HasSoundIndexes := by
  obtain ⟨claims, indexes, -, hindexes, rfl⟩ := resolve_eq_ok h
  exact ⟨indexes.names, (IndexTable.isSound_empty _).foldlM hindexes⟩

/-- The last declaration of an attribute counts. -/
theorem get?_declared (definition : ModelDefinition) (name : String) :
    (OrderedMap.ofList (definition.properties.map fun property =>
      (property.name, property.type))).get? name = definition.declaredType? name := by
  rw [OrderedMap.get?_ofList, declaredType?, ← List.map_reverse, List.find?_map, Option.map_map]
  rfl

/-- The key types of a schema are those of the declarations. An identifier that is not declared is
text. -/
theorem scalarType_of_resolve (h : definition.resolve = .ok schema) (name : String) :
    schema.scalarType name = definition.keyType name := by
  obtain ⟨claims, indexes, -, -, rfl⟩ := resolve_eq_ok h
  unfold Schema.scalarType Schema.type? keyType resolveHash
  cases claims.hash with
  | some hash => simp only [get?_declared]
  | none =>
    simp only [OrderedMap.contains, get?_declared]
    split
    case isTrue => simp only [get?_declared]
    case isFalse hid =>
      simp only [OrderedMap.get?_insert, get?_declared]
      split
      case isTrue heq =>
        obtain rfl := Std.LawfulEqCmp.eq_of_compare heq
        rw [Option.not_isSome_iff_eq_none.1 hid]
        rfl
      case isFalse => rfl

theorem name_of_resolve (h : definition.resolve = .ok schema) : schema.name = definition.name := by
  obtain ⟨claims, indexes, -, -, rfl⟩ := resolve_eq_ok h
  rfl

end ModelDefinition

namespace Registry

variable {registry after : Registry} {definition : ModelDefinition} {schema : Schema}

/-- A model is registered if its name is free and its definition resolves. -/
theorem define_eq_ok_iff : registry.define definition = .ok (schema, after) ↔
    registry.get? definition.name = none ∧ definition.resolve = .ok schema ∧
      OrderedMap.insert registry definition.name schema = after := by
  unfold define OrderedMap.contains
  cases hget : registry.get? definition.name with
  | some other => simp
  | none =>
    simp only [Option.isSome_none, Bool.false_eq_true, if_false, bind_eq_ok_iff, Except.ok.injEq,
      Prod.mk.injEq, true_and]
    constructor
    · rintro ⟨resolved, hresolve, rfl, rfl⟩
      exact ⟨hresolve, by rw [ModelDefinition.name_of_resolve hresolve]⟩
    · rintro ⟨hresolve, rfl⟩
      exact ⟨schema, hresolve, rfl, by rw [ModelDefinition.name_of_resolve hresolve]⟩

/-- A model that is registered was resolved. -/
theorem resolve_of_define (h : registry.define definition = .ok (schema, after)) :
    definition.resolve = .ok schema :=
  (define_eq_ok_iff.1 h).2.1

/-- A model that is registered is found under its name, and the others are as before. -/
theorem get?_of_define (h : registry.define definition = .ok (schema, after)) :
    registry.get? schema.name = none ∧ ∀ name, OrderedMap.get? after name =
      if name = schema.name then some schema else registry.get? name := by
  obtain ⟨hfree, hresolve, rfl⟩ := define_eq_ok_iff.1 h
  rw [ModelDefinition.name_of_resolve hresolve]
  refine ⟨hfree, fun name => ?_⟩
  rw [OrderedMap.get?_insert]
  simp

end Registry

end KeyedStore
