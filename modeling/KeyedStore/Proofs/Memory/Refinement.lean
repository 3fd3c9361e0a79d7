import KeyedStore.Attribute.Equality
import KeyedStore.Proofs.Memory.ItemKeys
import KeyedStore.Proofs.Memory.Storage
import Mathlib.Data.List.Basic
import Mathlib.Data.List.Induction

/-!
# Table storage as a finite map

A storage is a finite map from keys to items: under a key stands what the last change of that key
left there. The partitions, the order of the items and their count are read off from the keys that
have an item.
-/
namespace KeyedStore

open Std

namespace TableStorage

variable {storage after : TableStorage} {item : Item} {hash : KeyValue} {key : PrimaryKey}

section Entries

/-- What stands under a key is the item with that key. -/
theorem IsSound.get?_eq_some_iff (h : storage.IsSound) :
    storage.get? key = some item ↔ item ∈ storage.allItems ∧
      ∃ own, storage.keySchema.keyOf item = .ok own ∧ key.same own := by
  have hpartition := h.partition key.partition
  unfold TableStorage.get?
  rw [hpartition.ascending.get?_eq_some_iff_exists]
  constructor
  · rintro ⟨place, hmem, hplace⟩
    obtain ⟨own, hown, hhash, hat⟩ := hpartition.placed _ _ hmem
    refine ⟨(h.mem_partitionItems.1 (List.mem_map.2 ⟨_, hmem, rfl⟩)).1, own, hown, ?_⟩
    exact PrimaryKey.same_iff.2 ⟨OrientedCmp.eq_symm hhash,
      TransCmp.eq_trans hplace (OrientedCmp.eq_symm hat)⟩
  · rintro ⟨hmem, own, hown, hsame⟩
    obtain ⟨hhash, hplace⟩ := PrimaryKey.same_iff.1 hsame
    obtain ⟨⟨place, _⟩, hentry, rfl⟩ := List.mem_map.1
      (h.mem_partitionItems.2 ⟨hmem, own, hown, OrientedCmp.eq_symm hhash⟩)
    obtain ⟨own', hown', -, hat⟩ := hpartition.placed _ _ hentry
    obtain rfl : own = own' := by simpa [hown] using hown'
    exact ⟨place, hentry, TransCmp.eq_trans hplace hat⟩

/-- An item stands under its key. -/
theorem IsSound.exists_get? (h : storage.IsSound) (hmem : item ∈ storage.allItems) :
    ∃ own, storage.keySchema.keyOf item = .ok own ∧ storage.get? own = some item := by
  obtain ⟨own, hown⟩ := h.exists_keyOf hmem
  exact ⟨own, hown, h.get?_eq_some_iff.2 ⟨hmem, own, hown, own.same_self⟩⟩

/-- What stands under a key, or the item that is asked for where nothing does, has that key. -/
theorem IsSound.exists_keyOf_getD (h : storage.IsSound) {asked : Item}
    (hasked : storage.keySchema.keyOf asked = .ok key) :
    ∃ own, storage.keySchema.keyOf ((storage.get? key).getD asked) = .ok own ∧ key.same own := by
  cases hget : storage.get? key with
  | none => exact ⟨key, hasked, key.same_self⟩
  | some found => exact (h.get?_eq_some_iff.1 hget).2

theorem IsSound.get?_of_allItems_eq_nil (h : storage.IsSound) (hempty : storage.allItems = [])
    (key : PrimaryKey) : storage.get? key = none := by
  refine Option.eq_none_iff_forall_ne_some.2 fun item hitem => ?_
  have hmem := (h.get?_eq_some_iff.1 hitem).1
  simp [hempty] at hmem

/-- Items in the order of their keys are known by what is among them. -/
theorem eq_of_mem_iff {schema : KeySchema} {items others : List Item}
    (hitems : items.Pairwise schema.Precedes) (hothers : others.Pairwise schema.Precedes)
    (h : ∀ item, item ∈ items ↔ item ∈ others) : items = others := by
  have hperm := (List.perm_ext_iff_of_nodup (hitems.imp KeySchema.Precedes.ne)
    (hothers.imp KeySchema.Precedes.ne)).2 h
  refine hperm.eq_of_pairwise (fun a b _ _ hab hba => ?_) hitems hothers
  obtain ⟨ka, kb, ha, hb, hlt⟩ := hab
  obtain ⟨kb', ka', hb', ha', hgt⟩ := hba
  obtain rfl : ka = ka' := by simpa [ha] using ha'
  obtain rfl : kb = kb' := by simpa [hb] using hb'
  simp [OrientedCmp.gt_of_lt hlt] at hgt

/-- The items of a partition in order are the items with its hash value in order. -/
theorem IsSound.partitionItems_eq_filter (h : storage.IsSound) :
    storage.partitionItems hash = storage.allItems.filter fun item =>
      (storage.keySchema.partition.value? item).any (·.same hash) := by
  refine eq_of_mem_iff (h.partition hash).pairwise_precedes (h.pairwise_allItems.filter _)
    fun item => ?_
  rw [List.mem_filter]
  refine h.mem_partitionItems.trans (and_congr_right fun hmem => ?_)
  obtain ⟨key, hkey⟩ := h.exists_keyOf hmem
  have hvalue := KeyAttribute.value?_of_read (KeySchema.keyOf_eq_ok_iff.1 hkey).1
  simp [hkey, hvalue, KeyValue.same_iff]

/-- The keys of the items in order. -/
def liveKeys (storage : TableStorage) : List PrimaryKey :=
  storage.allItems.filterMap fun item => (storage.keySchema.keyOf item).toOption

/-- Each item has one of the keys. -/
theorem IsSound.map_ok_liveKeys (h : storage.IsSound) :
    storage.liveKeys.map .ok = storage.allItems.map storage.keySchema.keyOf := by
  rw [liveKeys, List.map_filterMap, ← List.filterMap_eq_map]
  refine List.filterMap_congr fun item hmem => ?_
  obtain ⟨key, hkey⟩ := h.exists_keyOf hmem
  simp [hkey, Except.toOption]

theorem IsSound.map_get?_liveKeys (h : storage.IsSound) :
    storage.liveKeys.map storage.get? = storage.allItems.map some := by
  rw [liveKeys, List.map_filterMap, ← List.filterMap_eq_map]
  refine List.filterMap_congr fun item hmem => ?_
  obtain ⟨key, hkey, hget⟩ := h.exists_get? hmem
  simpa [hkey, Except.toOption] using hget

theorem IsSound.pairwise_liveKeys (h : storage.IsSound) :
    storage.liveKeys.Pairwise fun a b => compare a b = .lt := by
  refine List.pairwise_filterMap.2 (h.pairwise_allItems.imp fun hlt a ha b hb => ?_)
  obtain ⟨ka, kb, hka, hkb, hlt⟩ := hlt
  obtain rfl : ka = a := by simpa [hka, Except.toOption] using ha
  obtain rfl : kb = b := by simpa [hkb, Except.toOption] using hb
  exact hlt

/-- A key has an item if it is one of the keys of the items. -/
theorem IsSound.isSome_get?_iff (h : storage.IsSound) :
    (storage.get? key).isSome ↔ ∃ live ∈ storage.liveKeys, key.same live := by
  simp only [Option.isSome_iff_exists, h.get?_eq_some_iff, liveKeys, List.mem_filterMap,
    toOption_eq_some_iff]
  constructor
  · rintro ⟨item, hmem, own, hown, hsame⟩
    exact ⟨own, ⟨item, hmem, hown⟩, hsame⟩
  · rintro ⟨own, ⟨item, hmem, hown⟩, hsame⟩
    exact ⟨item, hmem, own, hown, hsame⟩

end Entries

section Steps

/-- A place of the storage is looked up in the partition of its hash value. -/
theorem get?_insert_partition (partition : Partition) (keySchema : KeySchema) (itemCount : Nat) :
    get? ⟨keySchema, storage.partitions.insert hash partition, itemCount⟩ key =
      if compare key.partition hash = .eq then partition.get? key.place
      else storage.get? key := by
  unfold TableStorage.get? TableStorage.partition
  rw [OrderedMap.get?_insert]
  split <;> rfl

theorem get?_erase_partition (keySchema : KeySchema) (itemCount : Nat) :
    get? ⟨keySchema, storage.partitions.erase hash, itemCount⟩ key =
      if compare key.partition hash = .eq then none else storage.get? key := by
  unfold TableStorage.get? TableStorage.partition
  rw [OrderedMap.get?_erase]
  split <;> rfl

/-- The spelling of a hash value does not matter. -/
theorem get?_partition_of_eq (h : compare key.partition hash = .eq) :
    (storage.partition hash).get? key.place = storage.get? key := by
  unfold TableStorage.get? TableStorage.partition
  rw [OrderedMap.get?_congr h]

/-- The spelling of a key does not matter. -/
theorem get?_of_same {other : PrimaryKey} (h : key.same other) :
    storage.get? key = storage.get? other := by
  obtain ⟨hhash, hplace⟩ := PrimaryKey.same_iff.1 h
  rw [← get?_partition_of_eq hhash, OrderedMap.get?_congr hplace]
  rfl

/-- An item that is stored stands under its own key and leaves the others alone. -/
theorem put_eq_ok {replaced : Option Item} (h : storage.put item = .ok (replaced, after)) :
    ∃ own, storage.keySchema.keyOf item = .ok own ∧ replaced = storage.get? own ∧
      after.keySchema = storage.keySchema ∧
      ∀ key, after.get? key = if key.same own then some item else storage.get? key := by
  obtain ⟨own, hown, h⟩ := bind_eq_ok_iff.1 h
  cases h
  refine ⟨own, hown, rfl, rfl, fun key => ?_⟩
  rw [get?_insert_partition, OrderedMap.get?_insert]
  by_cases hhash : compare key.partition own.partition = .eq
  · simp [PrimaryKey.same_iff, hhash, get?_partition_of_eq]
  · simp [PrimaryKey.same_iff, hhash]

/-- An item that replaces none is counted. -/
theorem itemCount_put {replaced : Option Item} (h : storage.put item = .ok (replaced, after)) :
    after.itemCount = if replaced.isNone then storage.itemCount + 1 else storage.itemCount := by
  obtain ⟨own, -, h⟩ := bind_eq_ok_iff.1 h
  cases h
  rfl

/-- Removing what stands under a key leaves the other keys alone. -/
theorem get?_delete (storage : TableStorage) (own key : PrimaryKey) :
    (storage.delete own).2.get? key = if key.same own then none else storage.get? key := by
  unfold delete
  cases hget : storage.get? own with
  | none =>
    show storage.get? key = _
    split
    case isFalse => rfl
    case isTrue hsame =>
      rw [get?_of_same hsame, hget]
  | some removed =>
    simp only
    by_cases hhash : compare key.partition own.partition = .eq
    · have herase : OrderedMap.get? (OrderedMap.erase (storage.partition own.partition) own.place)
          key.place = if key.same own then none else storage.get? key := by
        rw [OrderedMap.get?_erase, get?_partition_of_eq hhash]
        simp [PrimaryKey.same_iff, hhash]
      split
      case isTrue hempty =>
        rw [get?_erase_partition, if_pos hhash, ← herase, List.isEmpty_iff.1 hempty]
        rfl
      case isFalse => rw [get?_insert_partition, if_pos hhash, herase]
    · have hsame : ¬key.same own := fun h => hhash (PrimaryKey.same_iff.1 h).1
      rw [if_neg hsame]
      split
      · rw [get?_erase_partition, if_neg hhash]
      · rw [get?_insert_partition, if_neg hhash]

/-- Removing what stands under a key leaves all other items. -/
theorem IsSound.allItems_delete (h : storage.IsSound) (hget : storage.get? key = some item) :
    (storage.delete key).2.allItems = storage.allItems.filter (· ≠ item) := by
  have hafter := h.delete key
  refine eq_of_mem_iff (storage.keySchema_delete key ▸ hafter.pairwise_allItems)
    (h.pairwise_allItems.filter _) fun other => ?_
  have hfound {own : PrimaryKey} (hdifferent : ¬own.same key) :
      (storage.delete key).2.get? own = storage.get? own := by
    rw [get?_delete, if_neg hdifferent]
  rw [List.mem_filter, decide_eq_true_eq]
  constructor
  · intro hother
    obtain ⟨own, hown, hstays⟩ := hafter.exists_get? hother
    have hdifferent : ¬own.same key := fun hsame => by simp [get?_delete, hsame] at hstays
    rw [hfound hdifferent] at hstays
    refine ⟨(h.get?_eq_some_iff.1 hstays).1, fun heq => hdifferent ?_⟩
    obtain ⟨-, own', hown', hsame⟩ := h.get?_eq_some_iff.1 hget
    rw [storage.keySchema_delete, heq] at hown
    obtain rfl : own = own' := by simpa [hown] using hown'
    exact PrimaryKey.same_comm ▸ hsame
  · rintro ⟨hother, hne⟩
    obtain ⟨own, hown, hstood⟩ := h.exists_get? hother
    have hdifferent : ¬own.same key := fun hsame => hne <| by
      rw [get?_of_same hsame, hget] at hstood
      exact (Option.some.inj hstood).symm
    exact (hafter.get?_eq_some_iff.1 ((hfound hdifferent).trans hstood)).1

/-- No items are there after one was stored but that and those that were there. -/
theorem IsSound.mem_allItems_put (h : storage.IsSound) {replaced : Option Item}
    (hput : storage.put item = .ok (replaced, after)) {other : Item}
    (hmem : other ∈ after.allItems) :
    other = item ∨ other ∈ storage.allItems := by
  have hafter := h.put hput
  obtain ⟨own, -, hstands⟩ := hafter.exists_get? hmem
  obtain ⟨key, -, -, -, hget⟩ := put_eq_ok hput
  rw [hget] at hstands
  split at hstands
  · exact .inl (Option.some.inj hstands).symm
  · exact .inr (h.get?_eq_some_iff.1 hstands).1

theorem IsSound.mem_allItems_delete (h : storage.IsSound)
    (hmem : item ∈ (storage.delete key).2.allItems) : item ∈ storage.allItems := by
  cases hget : storage.get? key with
  | none => simpa [TableStorage.delete, hget] using hmem
  | some removed => exact (List.mem_filter.1 (h.allItems_delete hget ▸ hmem)).1

@[simp]
theorem delete_fst : (storage.delete key).1 = storage.get? key := by
  unfold delete
  split <;> simp_all

/-- Whether every partition has an item. -/
def HasNoEmptyPartition (storage : TableStorage) : Prop :=
  ∀ hash partition, (hash, partition) ∈ storage.partitions → partition ≠ []

theorem HasNoEmptyPartition.put (h : storage.HasNoEmptyPartition) (hsound : storage.IsSound)
    {replaced : Option Item} (hput : storage.put item = .ok (replaced, after)) :
    after.HasNoEmptyPartition := by
  obtain ⟨own, -, hput⟩ := bind_eq_ok_iff.1 hput
  cases hput
  intro other partition hmem
  rcases hsound.ascending.mem_insert hmem with ⟨-, rfl⟩ | hmem
  · intro hempty
    have hfound : ((storage.partition own.partition).insert own.place item).get? own.place =
        some item := OrderedMap.get?_insert_self
    simp [hempty, OrderedMap.get?] at hfound
  · exact h other partition hmem

theorem HasNoEmptyPartition.delete (h : storage.HasNoEmptyPartition) (hsound : storage.IsSound)
    (key : PrimaryKey) : (storage.delete key).2.HasNoEmptyPartition := by
  unfold TableStorage.delete
  split
  · exact h
  · intro other partition hmem
    simp only at hmem
    split at hmem
    case isTrue => exact h other partition (List.mem_filter.1 hmem).1
    case isFalse hempty =>
      rcases hsound.ascending.mem_insert hmem with ⟨-, rfl⟩ | hmem
      · exact fun hnil => hempty (List.isEmpty_iff.2 hnil)
      · exact h other partition hmem

end Steps

section Changes

/-- A change of a storage: an item is stored, or what stands under the key of an item removed. -/
inductive Change where
  | put (item : Item)
  | delete (item : Item)

/-- The item whose key a change is about. -/
def Change.keyedBy : Change → Item
  | put item | delete item => item

/-- What a change leaves under its key. -/
def Change.left : Change → Option Item
  | put item => some item
  | delete _ => none

/-- Makes a change. Answers the item that was replaced or removed. The key of the item, which may be
missing, is read before anything is put in or removed, so an error comes with the storage as it
was. -/
def change (storage : TableStorage) : Change → Except StorageError (Option Item) × TableStorage
  | .put item =>
    match storage.put item with
    | .ok (replaced, after) => (.ok replaced, after)
    | .error error => (.error error, storage)
  | .delete item =>
    match storage.keySchema.keyOf item with
    | .ok key => (.ok (storage.delete key).1, (storage.delete key).2)
    | .error error => (.error error, storage)

/-- Makes changes one after the other. -/
def changeAll (storage : TableStorage) (changes : List Change) : TableStorage :=
  changes.foldl (fun storage change => (storage.change change).2) storage

/-- Whether a change is about a key. -/
def Change.concerns (schema : KeySchema) (key : PrimaryKey) (change : Change) : Bool :=
  (schema.keyOf change.keyedBy).toOption.any (key.same ·)

/-- What the last change of a key left there. -/
def lastLeft (schema : KeySchema) (changes : List Change) (key : PrimaryKey) : Option Item :=
  (changes.filter (·.concerns schema key)).getLast?.bind Change.left

variable {schema : KeySchema} {changes : List Change} {change : Change}

theorem changeAll_concat :
    storage.changeAll (changes ++ [change]) = ((storage.changeAll changes).change change).2 := by
  simp [changeAll]

theorem lastLeft_concat : lastLeft schema (changes ++ [change]) key =
    if change.concerns schema key then change.left else lastLeft schema changes key := by
  cases h : change.concerns schema key <;> simp [lastLeft, h]

/-- What a change does: it stores, it removes, or it fails for want of a key. -/
theorem change_cases (storage : TableStorage) (change : Change) :
    (∃ item replaced after, change = .put item ∧ storage.put item = .ok (replaced, after) ∧
      storage.change change = (.ok replaced, after)) ∨
    (∃ item own, change = .delete item ∧ storage.keySchema.keyOf item = .ok own ∧
      storage.change change = (.ok (storage.get? own), (storage.delete own).2)) ∨
    ∃ error, storage.keySchema.keyOf change.keyedBy = .error error ∧
      storage.change change = (.error error, storage) := by
  cases change with
  | put item =>
    cases hown : storage.keySchema.keyOf item with
    | ok own =>
      obtain ⟨after, hput⟩ : ∃ after, storage.put item = .ok (storage.get? own, after) := by
        simp [put, hown]
      exact .inl ⟨item, _, after, rfl, hput, by simp [TableStorage.change, hput]⟩
    | error error =>
      exact .inr (.inr ⟨error, hown, by simp [TableStorage.change, put, hown]⟩)
  | delete item =>
    cases hown : storage.keySchema.keyOf item with
    | ok own =>
      exact .inr (.inl ⟨item, own, rfl, hown, by simp [TableStorage.change, hown]⟩)
    | error error =>
      exact .inr (.inr ⟨error, hown, by simp [TableStorage.change, hown]⟩)

/-- A change answers what stands under its key. -/
theorem change_fst (storage : TableStorage) (change : Change) :
    (storage.change change).1 = (storage.keySchema.keyOf change.keyedBy).map storage.get? := by
  rcases storage.change_cases change with
    ⟨item, replaced, after, rfl, hput, heq⟩ | ⟨item, own, rfl, hown, heq⟩ | ⟨error, hown, heq⟩
  · obtain ⟨own, hown, rfl, -⟩ := put_eq_ok hput
    simp [heq, Change.keyedBy, hown, Except.map]
  · simp [heq, Change.keyedBy, hown, Except.map]
  · simp [heq, hown, Except.map]

/-- A change that fails changes nothing. -/
theorem change_snd_of_error {error : StorageError} (h : (storage.change change).1 = .error error) :
    (storage.change change).2 = storage := by
  rcases storage.change_cases change with
    ⟨item, replaced, after, -, -, heq⟩ | ⟨item, own, -, -, heq⟩ | ⟨error, -, heq⟩
  · simp [heq] at h
  · simp [heq] at h
  · simp [heq]

/-- A change keeps the schema and sets what stands under its key. -/
theorem get?_change (storage : TableStorage) (change : Change) :
    (storage.change change).2.keySchema = storage.keySchema ∧
      ∀ key, (storage.change change).2.get? key =
        if change.concerns storage.keySchema key then change.left else storage.get? key := by
  rcases storage.change_cases change with
    ⟨item, replaced, after, rfl, hput, heq⟩ | ⟨item, own, rfl, hown, heq⟩ | ⟨error, hown, heq⟩
  · obtain ⟨own, hown, -, hschema, hget⟩ := put_eq_ok hput
    rw [heq]
    refine ⟨hschema, fun key => ?_⟩
    simpa [Change.concerns, Change.keyedBy, Change.left, hown, Except.toOption] using hget key
  · rw [heq]
    refine ⟨storage.keySchema_delete own, fun key => ?_⟩
    simpa [Change.concerns, Change.keyedBy, Change.left, hown, Except.toOption] using
      get?_delete storage own key
  · rw [heq]
    exact ⟨rfl, fun key => by simp [Change.concerns, hown, Except.toOption]⟩

/-- The step: a change keeps the invariants. -/
theorem IsSound.of_change (h : storage.IsSound) (hempty : storage.HasNoEmptyPartition)
    (change : Change) :
    (storage.change change).2.IsSound ∧ (storage.change change).2.HasNoEmptyPartition := by
  rcases storage.change_cases change with
    ⟨item, replaced, after, -, hput, heq⟩ | ⟨item, own, -, -, heq⟩ | ⟨error, -, heq⟩
  · rw [heq]
    exact ⟨h.put hput, hempty.put h hput⟩
  · rw [heq]
    exact ⟨h.delete own, hempty.delete h own⟩
  · rw [heq]
    exact ⟨h, hempty⟩

/-- The run: after changes of an empty storage, each key has what its last change left. -/
theorem isSound_changeAll (schema : KeySchema) (changes : List Change) :
    (changeAll { keySchema := schema } changes).IsSound ∧
      (changeAll { keySchema := schema } changes).HasNoEmptyPartition ∧
      (changeAll { keySchema := schema } changes).keySchema = schema ∧
      (changeAll { keySchema := schema } changes).get? = lastLeft schema changes := by
  induction changes using List.reverseRecOn with
  | nil => exact ⟨isSound_empty schema, by simp [HasNoEmptyPartition, changeAll], rfl, rfl⟩
  | append_singleton changes change ih =>
    obtain ⟨hsound, hempty, hschema, hget⟩ := ih
    obtain ⟨hsound', hempty'⟩ := hsound.of_change hempty change
    obtain ⟨hschema', hget'⟩ := get?_change (changeAll { keySchema := schema } changes) change
    rw [changeAll_concat]
    refine ⟨hsound', hempty', hschema'.trans hschema, funext fun key => ?_⟩
    rw [hget', hschema, hget, lastLeft_concat]

/-- Storages with the same content have the same content after the same changes. -/
theorem get?_changeAll_congr {other : TableStorage} (hschema : storage.keySchema = other.keySchema)
    (hget : storage.get? = other.get?) :
    (storage.changeAll changes).get? = (other.changeAll changes).get? := by
  induction changes generalizing storage other with
  | nil => exact hget
  | cons change rest ih =>
    obtain ⟨hkept, hchanged⟩ := get?_change storage change
    obtain ⟨hkept', hchanged'⟩ := get?_change other change
    refine ih (by rw [hkept, hkept', hschema]) (funext fun key => ?_)
    rw [hchanged, hchanged', hschema, hget]

end Changes

/-- The content of a sound storage has all of its items. -/
theorem IsSound.allItems_congr {other : TableStorage} (h : storage.IsSound) (h' : other.IsSound)
    (hschema : storage.keySchema = other.keySchema) (hget : storage.get? = other.get?) :
    storage.allItems = other.allItems := by
  refine eq_of_mem_iff h.pairwise_allItems (hschema ▸ h'.pairwise_allItems) fun item => ?_
  have hmem {one two : TableStorage} (hone : one.IsSound) (htwo : two.IsSound)
      (heq : one.get? = two.get?) (hitem : item ∈ one.allItems) : item ∈ two.allItems := by
    obtain ⟨key, -, hstands⟩ := hone.exists_get? hitem
    rw [heq] at hstands
    exact (htwo.get?_eq_some_iff.1 hstands).1
  exact ⟨hmem h h' hget, hmem h' h hget.symm⟩

/-- Whether a storage is the finite map with the given content. -/
structure Represents (storage : TableStorage) (content : PrimaryKey → Option Item) : Prop where
  /-- Under a key stands the item of the map. -/
  get? : ∀ key, storage.get? key = content key
  /-- The keys that have an item are those of the stored items. -/
  live : ∀ key, (content key).isSome ↔ ∃ live ∈ storage.liveKeys, key.same live
  ascending : storage.liveKeys.Pairwise fun a b => compare a b = .lt
  /-- All items are those of the map in the order of their keys. -/
  keys : storage.allItems.map storage.keySchema.keyOf = storage.liveKeys.map .ok
  allItems : storage.allItems.map some = storage.liveKeys.map content
  partitionItems : ∀ hash, storage.partitionItems hash = storage.allItems.filter fun item =>
    (storage.keySchema.partition.value? item).any (·.same hash)
  placed : ∀ hash partition, (hash, partition) ∈ storage.partitions → partition ≠ [] ∧
    ∀ place item, (place, item) ∈ partition → storage.keySchema.Places hash place item
  itemCount : storage.itemCount = storage.liveKeys.length
  /-- There is an item to take off the count when one is removed. -/
  itemCount_delete : ∀ key removed after, storage.delete key = (some removed, after) →
    after.itemCount + 1 = storage.itemCount

theorem IsSound.length_liveKeys (h : storage.IsSound) :
    storage.liveKeys.length = storage.allItems.length := by
  simpa using congrArg List.length h.map_ok_liveKeys

theorem IsSound.itemCount_delete (h : storage.IsSound) {removed : Item}
    (hdelete : storage.delete key = (some removed, after)) :
    after.itemCount + 1 = storage.itemCount := by
  have hget : storage.get? key = some removed := by
    rw [← delete_fst, hdelete]
  have hpos := List.length_pos_of_mem (h.get?_eq_some_iff.1 hget).1
  have hafter : (storage.delete key).2.itemCount = storage.itemCount - 1 := by
    simp [TableStorage.delete, hget]
  simp only [hdelete] at hafter
  have hcount := h.itemCount
  omega

/-- A sound storage is the finite map that its lookups make up. -/
theorem IsSound.represents (h : storage.IsSound) (hempty : storage.HasNoEmptyPartition) :
    storage.Represents storage.get? where
  get? _ := rfl
  live _ := h.isSome_get?_iff
  ascending := h.pairwise_liveKeys
  keys := h.map_ok_liveKeys.symm
  allItems := h.map_get?_liveKeys.symm
  partitionItems _ := h.partitionItems_eq_filter
  placed hash partition hmem :=
    ⟨hempty hash partition hmem, (h.partitions hash partition hmem).placed⟩
  itemCount := h.itemCount.trans h.length_liveKeys.symm
  itemCount_delete _ _ _ := h.itemCount_delete

/-- After any changes of an empty storage, it is the finite map of what the last changes of the keys
left there. A change answers what it replaces or removes, and one that fails changes nothing. -/
theorem represents_lastLeft (schema : KeySchema) (changes : List Change) :
    let storage := changeAll { keySchema := schema } changes
    storage.keySchema = schema ∧ storage.Represents (lastLeft schema changes) ∧
      (∀ change, (storage.change change).1 =
        (schema.keyOf change.keyedBy).map (lastLeft schema changes)) ∧
      (∀ change error, (storage.change change).1 = .error error →
        (storage.change change).2 = storage) ∧
      ∀ key item own, key.sort ≠ some .sentinel → schema.keyOf item = .ok own →
        (key.same own ↔ compare key own = .eq) := by
  obtain ⟨hsound, hempty, hschema, hget⟩ := isSound_changeAll schema changes
  refine ⟨hschema, hget ▸ hsound.represents hempty, fun change => ?_,
    fun change error => change_snd_of_error, fun key item own hkey hown => ?_⟩
  · rw [change_fst, hschema, hget]
  · exact PrimaryKey.same_iff_compare hkey (KeySchema.sort_ne_sentinel_of_keyOf hown)

end TableStorage

end KeyedStore
