import KeyedStore.Key.Identifier
import KeyedStore.Plan.Compile
import KeyedStore.Proofs.Model.Provisioning

/-!
# Models that differ in their indexes

A definition without its indexes resolves to the same schema without indexes. So models that differ
only in the indexes that they declare have the same keys and write the same records; and they
compare attributes with the same values, unless a boolean attribute is a key of an index of one of
them only.
-/
namespace KeyedStore

/-- A property that declares no index. -/
def Property.withoutIndexes (property : Property) : Property :=
  { property with localIndex := none, globalIndex := none }

/-- A definition that declares no indexes. -/
def ModelDefinition.withoutIndexes (definition : ModelDefinition) : ModelDefinition :=
  { definition with properties := definition.properties.map Property.withoutIndexes }

/-- A schema without its indexes. -/
def Schema.withoutIndexes (schema : Schema) : Schema :=
  { schema with localIndexes := [], globalIndexes := [] }

variable {definition other : ModelDefinition} {schema schema' : Schema}

/-- Indexes claim no role of a key. -/
theorem KeyClaims.ofProperties_withoutIndexes (model : String) (properties : List Property) :
    ofProperties model (properties.map Property.withoutIndexes) =
      ofProperties model properties := by
  unfold ofProperties
  rw [List.foldlM_map]
  rfl

theorem resolveHash_withoutIndexes (claims : KeyClaims) (properties : List Property) :
    resolveHash claims (properties.map Property.withoutIndexes) =
      resolveHash claims properties := by
  unfold resolveHash
  simp only [List.map_map, List.any_map]
  rfl

/-- Where no property declares an index there is none. -/
theorem IndexTable.ofProperties_withoutIndexes (model hashKey : String)
    (types : OrderedMap String PropertyType) (properties : List Property) :
    ofProperties model hashKey types (properties.map Property.withoutIndexes) = .ok {} := by
  unfold ofProperties
  rw [List.foldlM_map]
  induction properties with
  | nil => rfl
  | cons property rest ih => rw [List.foldlM_cons]; exact ih

/-- Without its indexes, a definition resolves to the schema without indexes. -/
theorem ModelDefinition.resolve_withoutIndexes (h : definition.resolve = .ok schema) :
    definition.withoutIndexes.resolve = .ok schema.withoutIndexes := by
  obtain ⟨claims, indexes, hclaims, -, rfl⟩ := resolve_eq_ok h
  have hindexes := IndexTable.ofProperties_withoutIndexes definition.name
    (resolveHash claims definition.properties).1 (resolveHash claims definition.properties).2.2
    definition.properties
  unfold resolve withoutIndexes
  simp only [KeyClaims.ofProperties_withoutIndexes, hclaims, ok_bind, resolveHash_withoutIndexes,
    hindexes]
  rfl

namespace Schema

/-- Definitions that differ only in their indexes resolve to such schemas. -/
theorem withoutIndexes_of_resolve (h : definition.withoutIndexes = other.withoutIndexes)
    (hschema : definition.resolve = .ok schema) (hschema' : other.resolve = .ok schema') :
    schema.withoutIndexes = schema'.withoutIndexes := by
  have hresolve := ModelDefinition.resolve_withoutIndexes hschema
  rw [h, ModelDefinition.resolve_withoutIndexes hschema'] at hresolve
  exact (Except.ok.inj hresolve).symm

theorem readKey_withoutIndexes (h : schema.withoutIndexes = schema'.withoutIndexes) :
    schema.readKey none = schema'.readKey none := by
  show schema.withoutIndexes.readKey none = schema'.withoutIndexes.readKey none
  rw [h]

theorem prepareWrite_withoutIndexes (h : schema.withoutIndexes = schema'.withoutIndexes) :
    schema.prepareWrite = schema'.prepareWrite := by
  show schema.withoutIndexes.prepareWrite = schema'.withoutIndexes.prepareWrite
  rw [h]

/-- Values are bound alike, where it is not told from the indexes how a boolean is stored. -/
theorem bind_withoutIndexes (h : schema.withoutIndexes = schema'.withoutIndexes) {name : String}
    (hboolean : schema.type? name = some .boolean → schema.isIndexed name = schema'.isIndexed name)
    (value : Json) : schema.bind name value = schema'.bind name value := by
  have htype : schema.type? name = schema'.type? name := by
    show schema.withoutIndexes.type? name = schema'.withoutIndexes.type? name
    rw [h]
  unfold bind
  rw [← htype]
  cases hname : schema.type? name with
  | none => rfl
  | some type =>
    cases type with
    | boolean => simp only [hboolean hname]
    | date => cases value <;> rfl
    | string | number | json => rfl

end Schema

end KeyedStore
