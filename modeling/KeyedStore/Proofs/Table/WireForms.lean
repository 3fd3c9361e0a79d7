import KeyedStore.Proofs.Wire.WrittenFields
import KeyedStore.Table.Wire

/-!
# Wire forms of table types

Every table type is read back from its wire form: the enumerations from their words, the structures
from the objects of their fields. `IsRepresentable` says of a value that its numbers are ones the
wire can carry: 64-bit integers, and a finite time.
-/
namespace KeyedStore

open Decoder Fields

theorem KeyPart.readsWords : KeyPart.ofWire.ReadsWords KeyPart.toWire :=
  readsWords_literal fun part => by cases part <;> exact ⟨_, rfl, rfl, by decide⟩

theorem ScalarType.readsWords : ScalarType.ofWire.ReadsWords ScalarType.toWire :=
  readsWords_literal fun type => by cases type <;> exact ⟨_, rfl, rfl, by decide⟩

theorem TableStatus.readsWords : TableStatus.ofWire.ReadsWords TableStatus.toWire :=
  readsWords_literal fun status => by cases status <;> exact ⟨_, rfl, rfl, by decide⟩

theorem BillingMode.readsWords : BillingMode.ofWire.ReadsWords BillingMode.toWire :=
  readsWords_literal fun mode => by cases mode <;> exact ⟨_, rfl, rfl, by decide⟩

theorem ProjectionType.readsWords : ProjectionType.ofWire.ReadsWords ProjectionType.toWire :=
  readsWords_literal fun type => by cases type <;> exact ⟨_, rfl, rfl, by decide⟩

theorem ReturnValues.readsWords : ReturnValues.ofWire.ReadsWords ReturnValues.toWire :=
  readsWords_literal fun values => by cases values <;> exact ⟨_, rfl, rfl, by decide⟩

theorem CapacityReport.readsWords : CapacityReport.ofWire.ReadsWords CapacityReport.toWire :=
  readsWords_literal fun report => by cases report <;> exact ⟨_, rfl, rfl, by decide⟩

theorem KeyElement.readsBack (element : KeyElement) :
    KeyElement.ofWire.ReadsBack KeyElement.toWire element := by
  have hfields := (writes_required "AttributeName" (restores_string element.name)).map KeyElement.mk
    |>.seq (writes_required "KeyType" (KeyPart.readsWords.restores element.part))
  exact hfields.readsBack (by decide) rfl

theorem AttributeDefinition.readsBack (definition : AttributeDefinition) :
    AttributeDefinition.ofWire.ReadsBack AttributeDefinition.toWire definition := by
  have hfields :=
    (writes_required "AttributeName" (restores_string definition.name)).map AttributeDefinition.mk
    |>.seq (writes_required "AttributeType" (ScalarType.readsWords.restores definition.type))
  exact hfields.readsBack (by decide) rfl

/-- The units are 64-bit integers. -/
structure Throughput.IsRepresentable (throughput : Throughput) : Prop where
  read : FitsInt64 throughput.read
  write : FitsInt64 throughput.write

theorem Throughput.IsRepresentable.readsBack {throughput : Throughput}
    (h : throughput.IsRepresentable) :
    Throughput.ofWire.ReadsBack Throughput.toWire throughput := by
  have hfields := (writes_required "ReadCapacityUnits" (restores_int64 h.read)).map Throughput.mk
    |>.seq (writes_required "WriteCapacityUnits" (restores_int64 h.write))
  exact hfields.readsBack (by decide) rfl

theorem Projection.readsBack (projection : Projection) :
    Projection.ofWire.ReadsBack Projection.toWire projection := by
  have hfields := (writes_optional "ProjectionType" projection.type
      fun type _ => ProjectionType.readsWords.restores type).map Projection.mk
    |>.seq (writes_list "NonKeyAttributes" projection.attributes fun name _ => restores_string name)
  exact hfields.readsBack (by decide) rfl

/-- The units of an index of its own capacity are 64-bit integers. -/
def GlobalIndex.IsRepresentable (index : GlobalIndex) : Prop :=
  ∀ throughput ∈ index.throughput, throughput.IsRepresentable

theorem GlobalIndex.IsRepresentable.readsBack {index : GlobalIndex} (h : index.IsRepresentable) :
    GlobalIndex.ofWire.ReadsBack GlobalIndex.toWire index := by
  have hfields := (writes_required "IndexName" (restores_string index.name)).map GlobalIndex.mk
    |>.seq (writes_required "KeySchema"
      (restores_list fun element (_ : element ∈ index.keyElements) => element.readsBack.restores))
    |>.seq (writes_required "Projection" index.projection.readsBack.restores)
    |>.seq (writes_optional "ProvisionedThroughput" index.throughput
      fun throughput hmem => (h throughput hmem).readsBack.restores)
  exact hfields.readsBack (by decide) rfl

theorem LocalIndex.readsBack (index : LocalIndex) :
    LocalIndex.ofWire.ReadsBack LocalIndex.toWire index := by
  have hfields := (writes_required "IndexName" (restores_string index.name)).map LocalIndex.mk
    |>.seq (writes_required "KeySchema"
      (restores_list fun element (_ : element ∈ index.keyElements) => element.readsBack.restores))
    |>.seq (writes_required "Projection" index.projection.readsBack.restores)
  exact hfields.readsBack (by decide) rfl

/-- The count and the units are 64-bit integers, and the time is finite. -/
structure TableDescription.IsRepresentable (table : TableDescription) : Prop where
  itemCount : ∀ count ∈ table.itemCount, FitsInt64 count
  createdAt : ∀ time ∈ table.createdAt, time.isFinite = true
  throughput : ∀ throughput ∈ table.throughput, throughput.IsRepresentable
  globalIndexes : ∀ index ∈ table.globalIndexes, index.IsRepresentable

theorem TableDescription.IsRepresentable.readsBack {table : TableDescription}
    (h : table.IsRepresentable) :
    TableDescription.ofWire.ReadsBack TableDescription.toWire table := by
  have hfields := (writes_optional "TableName" table.name
      fun name _ => restores_string name).map TableDescription.mk
    |>.seq (writes_optional "TableStatus" table.status
      fun status _ => TableStatus.readsWords.restores status)
    |>.seq (writes_list "KeySchema" table.keyElements fun element _ => element.readsBack.restores)
    |>.seq (writes_list "AttributeDefinitions" table.definitions
      fun definition _ => definition.readsBack.restores)
    |>.seq (writes_optional "ItemCount" table.itemCount
      fun count hmem => restores_int64 (h.itemCount count hmem))
    |>.seq (writes_optional "CreationDateTime" table.createdAt
      fun time hmem => restores_binary64 (h.createdAt time hmem))
    |>.seq (writes_optional "ProvisionedThroughput" table.throughput
      fun throughput hmem => (h.throughput throughput hmem).readsBack.restores)
    |>.seq (writes_list "GlobalSecondaryIndexes" table.globalIndexes
      fun index hmem => (h.globalIndexes index hmem).readsBack.restores)
    |>.seq (writes_list "LocalSecondaryIndexes" table.localIndexes
      fun index _ => index.readsBack.restores)
  exact hfields.readsBack (by decide) rfl

end KeyedStore
