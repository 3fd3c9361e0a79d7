import KeyedStore.Memory.KeySchema
import KeyedStore.StableSort

/-!
# Pages

A long reading is cut into pages. Items are read in the order of their cursors; a page ends with the
key of its last item if more items follow, and the next page resumes after that key.
-/
namespace KeyedStore

/-- The place of an item in a reading: its range value in the index, then its key in the table. -/
structure Cursor where
  index : Option KeyValue
  key : PrimaryKey

namespace Cursor

def order (a b : Cursor) : Ordering :=
  (compareOptions a.index b.index).then (compare a.key b.key)

instance : Ord Cursor := ⟨order⟩

/-- The cursor of an item, given the key of the table and the range attribute of the index. -/
def ofItem (keys : KeySchema) (indexSort : Option KeyAttribute) (item : Item) :
    Except StorageError Cursor := do
  let ranged := indexSort.bind fun key => (item.get? key.name).map fun value => (key, value)
  let index ← match ranged with
    | some (key, value) => some <$> KeyValue.ofAttribute key.name value
    | none => .ok none
  .ok { index, key := ← keys.keyOf item }

end Cursor

/-- How a reading runs: the key of the table, that of the index it goes through, the direction, the
key to resume after, and the most items of a page. -/
structure Reading where
  keys : KeySchema
  index : Option KeySchema
  forward : Bool
  startKey : Item
  limit : Nat

/-- A page of items, with the key of the last one if more follow. -/
structure Page where
  items : List Item
  lastKey : Option Item

namespace Reading

def indexSort (reading : Reading) : Option KeyAttribute := reading.index.bind (·.sort)

/-- The items with their cursors. -/
def locate (reading : Reading) (items : List Item) : Except StorageError (List (Cursor × Item)) :=
  items.mapM fun item => return (← Cursor.ofItem reading.keys reading.indexSort item, item)

/-- The located items in the order in which they are read. -/
def arrange (reading : Reading) (located : List (Cursor × Item)) : List (Cursor × Item) :=
  let ascending := stableSort (fun a b => (compare a.1 b.1).isLT) located
  if reading.forward then ascending else ascending.reverse

/-- Whether a cursor comes after another one in the direction of the reading. -/
def isAfter (reading : Reading) (cursor start : Cursor) : Bool :=
  if reading.forward then (compare cursor start).isGT else (compare cursor start).isLT

/-- What the continuation key of a page holds: the keys of the table and of the index. -/
def continuationKey (reading : Reading) (item : Item) : Item :=
  match reading.index with
  | some index => OrderedMap.insertAll (reading.keys.project item) (index.project item)
  | none => reading.keys.project item

/-- The items after the key to resume after, if there is one. -/
def resume (reading : Reading) (arranged : List (Cursor × Item)) :
    Except StorageError (List (Cursor × Item)) :=
  if reading.startKey.isEmpty then .ok arranged
  else do
    let start ← Cursor.ofItem reading.keys reading.indexSort reading.startKey
    .ok (arranged.filter fun located => reading.isAfter located.1 start)

/-- The next page of the items of a reading. -/
def page (reading : Reading) (items : List Item) : Except StorageError Page := do
  let located ← reading.locate items
  let remaining := (← reading.resume (reading.arrange located)).map (·.2)
  let items := remaining.take reading.limit
  .ok {
    items
    lastKey :=
      if reading.limit < remaining.length then items.getLast?.map reading.continuationKey
      else none }

end Reading

end KeyedStore
