import KeyedStore.Memory.KeySchema

/-!
# Table storage

The items of a table: partitions by hash value, and within a partition items by range value. Both
levels are in key order. The number of items is counted as they come and go.
-/
namespace KeyedStore

/-- The items of one partition by their range values. -/
abbrev Partition := OrderedMap KeyValue Item

/-- The items of a table. -/
structure TableStorage where
  keySchema : KeySchema
  partitions : OrderedMap KeyValue Partition := []
  itemCount : Nat := 0

namespace TableStorage

/-- The items of a partition by their range values. -/
def partition (storage : TableStorage) (hash : KeyValue) : Partition :=
  (storage.partitions.get? hash).getD []

/-- The item under a key. -/
def get? (storage : TableStorage) (key : PrimaryKey) : Option Item :=
  (storage.partition key.partition).get? key.place

/-- Stores an item under its own key. Answers the item it replaces. -/
def put (storage : TableStorage) (item : Item) :
    Except StorageError (Option Item × TableStorage) := do
  let key ← storage.keySchema.keyOf item
  let replaced := storage.get? key
  let partition := (storage.partition key.partition).insert key.place item
  .ok (replaced, { storage with
    partitions := storage.partitions.insert key.partition partition
    itemCount := if replaced.isNone then storage.itemCount + 1 else storage.itemCount })

/-- Removes the item under a key, and its partition if that is empty then. Answers the item. -/
def delete (storage : TableStorage) (key : PrimaryKey) : Option Item × TableStorage :=
  match storage.get? key with
  | none => (none, storage)
  | some removed =>
    let partition := OrderedMap.erase (storage.partition key.partition) key.place
    (some removed, { storage with
      partitions :=
        if partition.isEmpty then OrderedMap.erase storage.partitions key.partition
        else storage.partitions.insert key.partition partition
      itemCount := storage.itemCount - 1 })

/-- The items of a partition in the order of their range values. -/
def partitionItems (storage : TableStorage) (hash : KeyValue) : List Item :=
  (storage.partition hash).values

/-- All items in the order of their keys. -/
def allItems (storage : TableStorage) : List Item :=
  storage.partitions.values.flatMap OrderedMap.values

end TableStorage

end KeyedStore
