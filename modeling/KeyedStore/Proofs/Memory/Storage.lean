import KeyedStore.Memory.TableStorage
import KeyedStore.Proofs.Except
import KeyedStore.Proofs.Memory.KeyOrder
import KeyedStore.Proofs.OrderedMap

/-!
# Invariants of table storage

Every stored item stands at the place of its own key, so no two items have the same key, and the
items of a partition are those with its hash value.
-/
namespace KeyedStore

open Std

namespace KeySchema

variable {schema : KeySchema} {item : Item} {key : PrimaryKey}

/-- An item has a range value in its key where the schema has a range attribute. -/
theorem isSome_sort_of_keyOf (h : schema.keyOf item = .ok key) :
    key.sort.isSome = schema.sort.isSome := by
  obtain ⟨partition, -, h⟩ := bind_eq_ok_iff.1 h
  cases hsort : schema.sort with
  | none =>
    simp only [hsort, ok_bind] at h
    cases h
    rfl
  | some attr =>
    simp only [hsort] at h
    obtain ⟨sort, hread, h⟩ := bind_eq_ok_iff.1 h
    cases h
    obtain ⟨value, -, rfl⟩ := map_eq_ok_iff.1 hread
    rfl

/-- Keys of one schema are ordered by hash value and place. -/
theorem compare_of_keyOf {other : Item} {a b : PrimaryKey} (ha : schema.keyOf item = .ok a)
    (hb : schema.keyOf other = .ok b) :
    compare a b = (compare a.partition b.partition).then (compare a.place b.place) := by
  have hsome : a.sort.isSome = b.sort.isSome :=
    (isSome_sort_of_keyOf ha).trans (isSome_sort_of_keyOf hb).symm
  show (compare a.partition b.partition).then (compareOptions a.sort b.sort) = _
  unfold PrimaryKey.place
  cases hsort : a.sort <;> cases hother : b.sort <;> simp_all [compareOptions]

/-- Whether the key of one item comes before that of another. -/
def Precedes (schema : KeySchema) (a b : Item) : Prop :=
  ∃ ka kb, schema.keyOf a = .ok ka ∧ schema.keyOf b = .ok kb ∧ compare ka kb = .lt

/-- Whether a place of the storage is that of an item. -/
def Places (schema : KeySchema) (hash place : KeyValue) (item : Item) : Prop :=
  ∃ key, schema.keyOf item = .ok key ∧ compare key.partition hash = .eq ∧
    compare key.place place = .eq

theorem Precedes.ne {a b : Item} (h : schema.Precedes a b) : a ≠ b := by
  rintro rfl
  obtain ⟨ka, kb, ha, hb, hlt⟩ := h
  obtain rfl : ka = kb := by simpa [ha] using hb
  simp [ReflCmp.compare_self] at hlt

end KeySchema

/-- Whether the items of a partition stand at their places in order. -/
structure Partition.IsSound (schema : KeySchema) (hash : KeyValue) (partition : Partition) : Prop
    where
  ascending : partition.IsAscending
  placed : ∀ place item, (place, item) ∈ partition → schema.Places hash place item

namespace Partition.IsSound

variable {schema : KeySchema} {hash other : KeyValue} {partition : Partition}

theorem nil (schema : KeySchema) (hash : KeyValue) : IsSound schema hash [] where
  ascending := .nil
  placed := by simp

/-- The spelling of a hash value does not matter. -/
theorem congr (h : partition.IsSound schema hash) (heq : compare hash other = .eq) :
    partition.IsSound schema other where
  ascending := h.ascending
  placed place item hmem := by
    obtain ⟨key, hkey, hhash, hplace⟩ := h.placed place item hmem
    exact ⟨key, hkey, TransCmp.eq_trans hhash heq, hplace⟩

theorem insert (h : partition.IsSound schema hash) {item : Item} {key : PrimaryKey}
    (hkey : schema.keyOf item = .ok key) (hhash : compare key.partition hash = .eq) :
    IsSound schema hash (partition.insert key.place item) where
  ascending := h.ascending.insert
  placed place other hmem := by
    rcases h.ascending.mem_insert hmem with ⟨hplace, rfl⟩ | hmem
    · exact ⟨key, hkey, hhash, hplace⟩
    · exact h.placed place other hmem

theorem erase (h : partition.IsSound schema hash) (place : KeyValue) :
    IsSound schema hash (OrderedMap.erase partition place) where
  ascending := h.ascending.erase
  placed other item hmem := h.placed other item (List.mem_filter.1 hmem).1

theorem pairwise_precedes (h : partition.IsSound schema hash) :
    partition.values.Pairwise schema.Precedes := by
  refine List.pairwise_map.2 (List.Pairwise.imp_of_mem ?_ h.ascending)
  intro a b hmema hmemb hlt
  obtain ⟨ka, hka, hhasha, hplacea⟩ := h.placed _ _ hmema
  obtain ⟨kb, hkb, hhashb, hplaceb⟩ := h.placed _ _ hmemb
  refine ⟨ka, kb, hka, hkb, ?_⟩
  have hhash : compare ka.partition kb.partition = .eq :=
    TransCmp.eq_trans hhasha (OrientedCmp.eq_symm hhashb)
  have hplace : compare ka.place kb.place = .lt :=
    TransCmp.lt_of_eq_of_lt hplacea (TransCmp.lt_of_lt_of_eq hlt (OrientedCmp.eq_symm hplaceb))
  rw [KeySchema.compare_of_keyOf hka hkb, hhash, hplace]
  rfl

end Partition.IsSound

namespace TableStorage

/-- The invariant of a storage. -/
structure IsSound (storage : TableStorage) : Prop where
  ascending : storage.partitions.IsAscending
  partitions : ∀ hash partition, (hash, partition) ∈ storage.partitions →
    partition.IsSound storage.keySchema hash
  itemCount : storage.itemCount = storage.allItems.length

variable {storage after : TableStorage} {item : Item} {hash : KeyValue}

theorem keySchema_put {replaced : Option Item} (h : storage.put item = .ok (replaced, after)) :
    after.keySchema = storage.keySchema := by
  obtain ⟨key, -, h⟩ := bind_eq_ok_iff.1 h
  cases h
  rfl

theorem keySchema_delete (storage : TableStorage) (key : PrimaryKey) :
    (storage.delete key).2.keySchema = storage.keySchema := by
  unfold TableStorage.delete
  split <;> rfl

theorem isSound_empty (schema : KeySchema) : IsSound { keySchema := schema } where
  ascending := .nil
  partitions := by simp
  itemCount := rfl

theorem IsSound.partition (h : storage.IsSound) (hash : KeyValue) :
    (storage.partition hash).IsSound storage.keySchema hash := by
  unfold TableStorage.partition
  cases hget : storage.partitions.get? hash with
  | none => exact .nil _ _
  | some partition =>
    obtain ⟨other, hmem, heq⟩ := h.ascending.get?_eq_some_iff_exists.1 hget
    exact (h.partitions other partition hmem).congr (OrientedCmp.eq_symm heq)

theorem mem_allItems : item ∈ storage.allItems ↔
    ∃ hash partition, (hash, partition) ∈ storage.partitions ∧ item ∈ partition.values := by
  constructor
  · intro h
    obtain ⟨partition, hpartition, hitem⟩ := List.mem_flatMap.1 h
    obtain ⟨entry, hentry, rfl⟩ := List.mem_map.1 hpartition
    exact ⟨entry.1, entry.2, hentry, hitem⟩
  · rintro ⟨hash, partition, hmem, hitem⟩
    exact List.mem_flatMap.2 ⟨partition, List.mem_map.2 ⟨_, hmem, rfl⟩, hitem⟩

/-- Every item has a key. -/
theorem IsSound.exists_keyOf (h : storage.IsSound) (hmem : item ∈ storage.allItems) :
    ∃ key, storage.keySchema.keyOf item = .ok key := by
  obtain ⟨hash, partition, hpartition, hitem⟩ := mem_allItems.1 hmem
  obtain ⟨entry, hentry, rfl⟩ := List.mem_map.1 hitem
  obtain ⟨key, hkey, -⟩ := (h.partitions hash partition hpartition).placed _ _ hentry
  exact ⟨key, hkey⟩

/-- The key of each item is greater than those of the items before it. -/
theorem IsSound.pairwise_allItems (h : storage.IsSound) :
    storage.allItems.Pairwise storage.keySchema.Precedes := by
  refine List.pairwise_flatMap.2 ⟨fun partition hmem => ?_, ?_⟩
  · obtain ⟨entry, hentry, rfl⟩ := List.mem_map.1 hmem
    exact (h.partitions entry.1 entry.2 hentry).pairwise_precedes
  · refine List.pairwise_map.2 (List.Pairwise.imp_of_mem ?_ h.ascending)
    intro a b hmema hmemb hlt x hx y hy
    obtain ⟨ex, hex, rfl⟩ := List.mem_map.1 hx
    obtain ⟨ey, hey, rfl⟩ := List.mem_map.1 hy
    obtain ⟨kx, hkx, hhashx, -⟩ := (h.partitions a.1 a.2 hmema).placed _ _ hex
    obtain ⟨ky, hky, hhashy, -⟩ := (h.partitions b.1 b.2 hmemb).placed _ _ hey
    refine ⟨kx, ky, hkx, hky, ?_⟩
    have hhash : compare kx.partition ky.partition = .lt :=
      TransCmp.lt_of_eq_of_lt hhashx (TransCmp.lt_of_lt_of_eq hlt (OrientedCmp.eq_symm hhashy))
    rw [KeySchema.compare_of_keyOf hkx hky, hhash]
    rfl

/-- The items of a partition are those with its hash value. -/
theorem IsSound.mem_partitionItems (h : storage.IsSound) :
    item ∈ storage.partitionItems hash ↔ item ∈ storage.allItems ∧
      ∃ key, storage.keySchema.keyOf item = .ok key ∧ compare key.partition hash = .eq := by
  unfold partitionItems
  constructor
  · intro hmem
    obtain ⟨entry, hentry, rfl⟩ := List.mem_map.1 hmem
    obtain ⟨key, hkey, hhash, -⟩ := (h.partition hash).placed _ _ hentry
    refine ⟨mem_allItems.2 ?_, key, hkey, hhash⟩
    unfold TableStorage.partition at hmem
    cases hget : storage.partitions.get? hash with
    | none => simp [hget, OrderedMap.values] at hmem
    | some partition =>
      obtain ⟨other, hother, -⟩ := h.ascending.get?_eq_some_iff_exists.1 hget
      exact ⟨other, partition, hother, by simpa [hget] using hmem⟩
  · rintro ⟨hmem, key, hkey, hhash⟩
    obtain ⟨other, partition, hpartition, hvalue⟩ := mem_allItems.1 hmem
    obtain ⟨entry, hentry, rfl⟩ := List.mem_map.1 hvalue
    obtain ⟨key', hkey', hhash', -⟩ := (h.partitions other partition hpartition).placed _ _ hentry
    obtain rfl : key = key' := by simpa [hkey] using hkey'
    have hget : storage.partitions.get? hash = some partition :=
      h.ascending.get?_eq_some_iff_exists.2
        ⟨other, hpartition, TransCmp.eq_trans (OrientedCmp.eq_symm hhash) hhash'⟩
    simpa [TableStorage.partition, hget] using hvalue

/-- Replacing a partition changes the number of items by the difference of the two. -/
theorem length_allItems_insert (hascending : storage.partitions.IsAscending) (hash : KeyValue)
    (partition : Partition) (keySchema : KeySchema) (itemCount : Nat) :
    (allItems ⟨keySchema, storage.partitions.insert hash partition, itemCount⟩).length +
        (storage.partition hash).length =
      storage.allItems.length + partition.length := by
  cases hget : storage.partitions.get? hash with
  | none =>
    have hperm := ((OrderedMap.insert_perm partition hget).map Prod.snd).flatMap_right
      OrderedMap.values
    have hlength :
        (allItems ⟨keySchema, storage.partitions.insert hash partition, itemCount⟩).length =
          (partition.values ++ storage.allItems).length := hperm.length_eq
    simp [hlength, TableStorage.partition, hget, OrderedMap.values, Nat.add_comm]
  | some old =>
    obtain ⟨before, k, after, heq, -, hinsert, -⟩ := hascending.exists_split hget
    simp only [TableStorage.partition, hget, allItems, hinsert partition, Option.getD_some]
    simp only [heq, OrderedMap.values, List.map_append, List.map_cons, List.flatMap_append,
      List.flatMap_cons, List.length_append, List.length_map]
    omega

/-- Storing an item keeps the invariant. -/
theorem IsSound.put (h : storage.IsSound) {replaced : Option Item}
    (hput : storage.put item = .ok (replaced, after)) : after.IsSound := by
  obtain ⟨key, hkey, hput⟩ := bind_eq_ok_iff.1 hput
  cases hput
  have hpartition := h.partition key.partition
  have hinsert := hpartition.insert hkey ReflCmp.compare_self
  refine ⟨h.ascending.insert, fun hash partition hmem => ?_, ?_⟩
  · rcases h.ascending.mem_insert hmem with ⟨heq, rfl⟩ | hmem
    · exact hinsert.congr heq
    · exact h.partitions hash partition hmem
  · have hlength := length_allItems_insert h.ascending key.partition
      ((storage.partition key.partition).insert key.place item) storage.keySchema
      (if (storage.get? key).isNone then storage.itemCount + 1 else storage.itemCount)
    have hcount := h.itemCount
    unfold TableStorage.get? at hlength ⊢
    cases hget : (storage.partition key.partition).get? key.place with
    | none =>
      have hnew := (OrderedMap.insert_perm item hget).length_eq
      simp only [hget, Option.isNone_none, if_true, List.length_cons] at hlength hnew ⊢
      omega
    | some old =>
      obtain ⟨before, k, after, heq, -, hreplace, -⟩ := hpartition.ascending.exists_split hget
      have hold : ((storage.partition key.partition).insert key.place item).length =
          (storage.partition key.partition).length := by
        rw [hreplace, heq]
        simp
      simp only [hget, Option.isNone_some, Bool.false_eq_true, if_false] at hlength ⊢
      omega

/-- Removing a partition takes the number of its items away. -/
theorem length_allItems_erase (hascending : storage.partitions.IsAscending) {partition : Partition}
    (hget : storage.partitions.get? hash = some partition) (keySchema : KeySchema)
    (itemCount : Nat) :
    (allItems ⟨keySchema, storage.partitions.erase hash, itemCount⟩).length + partition.length =
      storage.allItems.length := by
  obtain ⟨before, k, after, heq, -, -, herase⟩ := hascending.exists_split hget
  simp only [allItems, herase]
  simp only [heq, OrderedMap.values, List.map_append, List.map_cons, List.flatMap_append,
    List.flatMap_cons, List.length_append, List.length_map]
  omega

/-- Removing an item keeps the invariant. -/
theorem IsSound.delete (h : storage.IsSound) (key : PrimaryKey) :
    (storage.delete key).2.IsSound := by
  unfold TableStorage.delete
  cases hget : storage.get? key with
  | none => exact h
  | some removed =>
    have hpartition := h.partition key.partition
    obtain ⟨before, k, after, heq, -, -, herase⟩ := hpartition.ascending.exists_split hget
    have hcount := h.itemCount
    have hlength : (storage.partition key.partition).length =
        (OrderedMap.erase (storage.partition key.partition) key.place).length + 1 := by
      rw [herase, heq]
      simp
      omega
    simp only
    split
    case isTrue hempty =>
      -- An item was found, so the partition is among those of the storage.
      have hsome : storage.partitions.get? key.partition =
          some (storage.partition key.partition) := by
        unfold TableStorage.partition at hlength ⊢
        cases hfound : storage.partitions.get? key.partition with
        | none => simp [hfound, OrderedMap.erase] at hlength
        | some partition => rfl
      have htotal := length_allItems_erase h.ascending hsome storage.keySchema
        (storage.itemCount - 1)
      have hnil : (OrderedMap.erase (storage.partition key.partition) key.place).length = 0 := by
        simpa using hempty
      refine ⟨h.ascending.erase, fun hash partition hmem => ?_, ?_⟩
      · exact h.partitions hash partition (List.mem_filter.1 hmem).1
      · show storage.itemCount - 1 = _
        omega
    case isFalse =>
      refine ⟨h.ascending.insert, fun hash partition hmem => ?_, ?_⟩
      · rcases h.ascending.mem_insert hmem with ⟨heq, rfl⟩ | hmem
        · exact (hpartition.erase key.place).congr heq
        · exact h.partitions hash partition hmem
      · have htotal := length_allItems_insert h.ascending key.partition
          (OrderedMap.erase (storage.partition key.partition) key.place) storage.keySchema
          (storage.itemCount - 1)
        show storage.itemCount - 1 = _
        omega

end TableStorage

end KeyedStore
