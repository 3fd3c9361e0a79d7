import KeyedStore.Memory.KeySchema
import KeyedStore.Proofs.Except
import KeyedStore.Proofs.Memory.KeyOrder

/-!
# Keys of items

When an item has a key, and when two keys are the same place of a table: their hash values are the
same and so are their places in the partition, where the sentinel stands for a missing range value.
-/
namespace KeyedStore

open Std

namespace KeyValue

/-- The sentinel comes after the values of attributes. -/
theorem compare_sentinel {value : KeyValue} (h : value ≠ .sentinel) :
    compare value .sentinel = .lt ∧ compare .sentinel value = .gt := by
  cases value <;> first | exact absurd rfl h | exact ⟨rfl, rfl⟩

end KeyValue

namespace KeyAttribute

variable {key : KeyAttribute} {item : Item} {value : KeyValue}

/-- An attribute is read if it is there with the type that the key asks for. -/
theorem read_eq_ok_iff : key.read item = .ok value ↔ ∃ stored, item.get? key.name = some stored ∧
    key.type.admits stored ∧ KeyValue.ofAttribute key.name stored = .ok value := by
  unfold read check
  cases item.get? key.name with
  | none => simp
  | some stored => cases h : key.type.admits stored <;> simp [h]

/-- The value that is read is the value of the attribute. -/
theorem value?_of_read (h : key.read item = .ok value) : key.value? item = some value := by
  obtain ⟨stored, hstored, -, hvalue⟩ := read_eq_ok_iff.1 h
  simp [value?, hstored, hvalue, Except.toOption]

theorem ne_sentinel_of_read (h : key.read item = .ok value) : value ≠ .sentinel := by
  obtain ⟨stored, -, -, hvalue⟩ := read_eq_ok_iff.1 h
  rintro rfl
  cases stored <;> cases hvalue

end KeyAttribute

namespace KeySchema

variable {schema : KeySchema} {item : Item} {key : PrimaryKey}

/-- The key of an item is what is read for the attributes of the schema. -/
theorem keyOf_eq_ok_iff : schema.keyOf item = .ok key ↔
    schema.partition.read item = .ok key.partition ∧
      match schema.sort with
      | some attr => ∃ value, attr.read item = .ok value ∧ key.sort = some value
      | none => key.sort = none := by
  obtain ⟨partition, sort⟩ := key
  unfold keyOf
  cases schema.partition.read item with
  | error => simp
  | ok hash =>
    cases schema.sort with
    | none => simp [eq_comm]
    | some attr => cases h : attr.read item <;> simp [h, eq_comm]

/-- The key attributes of an item with a key are there, with values that are keys. -/
theorem exists_ofAttribute_of_keyOf {name : String} (h : schema.keyOf item = .ok key)
    (hname : name ∈ schema.names) :
    ∃ stored value, item.get? name = some stored ∧ KeyValue.ofAttribute name stored = .ok value := by
  obtain ⟨hpartition, hsort⟩ := keyOf_eq_ok_iff.1 h
  obtain ⟨attr, hattr, rfl⟩ := List.mem_map.1 hname
  have hread : ∃ value, attr.read item = .ok value := by
    rcases List.mem_cons.1 hattr with rfl | hmem
    · exact ⟨_, hpartition⟩
    · simp only [Option.mem_toList.1 hmem] at hsort
      obtain ⟨value, hread, -⟩ := hsort
      exact ⟨value, hread⟩
  obtain ⟨value, hread⟩ := hread
  obtain ⟨stored, hstored, -, hvalue⟩ := KeyAttribute.read_eq_ok_iff.1 hread
  exact ⟨stored, value, hstored, hvalue⟩

theorem sort_ne_sentinel_of_keyOf (h : schema.keyOf item = .ok key) :
    key.sort ≠ some .sentinel := by
  obtain ⟨-, hsort⟩ := keyOf_eq_ok_iff.1 h
  split at hsort
  · obtain ⟨value, hread, hsort⟩ := hsort
    rw [hsort]
    exact fun heq => KeyAttribute.ne_sentinel_of_read hread (Option.some.inj heq)
  · simp [hsort]

end KeySchema

namespace PrimaryKey

/-- Whether two keys are the same place of a table. -/
def same (a b : PrimaryKey) : Bool := a.partition.same b.partition && a.place.same b.place

variable {a b c : PrimaryKey}

theorem same_iff :
    a.same b ↔ compare a.partition b.partition = .eq ∧ compare a.place b.place = .eq := by
  simp [same, KeyValue.same_iff]

@[simp]
theorem same_self (a : PrimaryKey) : a.same a :=
  same_iff.2 ⟨ReflCmp.compare_self, ReflCmp.compare_self⟩

theorem same_comm : a.same b = b.same a := by
  rw [Bool.eq_iff_iff, same_iff, same_iff]
  exact and_congr ⟨OrientedCmp.eq_symm, OrientedCmp.eq_symm⟩
    ⟨OrientedCmp.eq_symm, OrientedCmp.eq_symm⟩

theorem same_trans (hab : a.same b) (hbc : b.same c) : a.same c := by
  obtain ⟨hhash, hplace⟩ := same_iff.1 hab
  obtain ⟨hhash', hplace'⟩ := same_iff.1 hbc
  exact same_iff.2 ⟨TransCmp.eq_trans hhash hhash', TransCmp.eq_trans hplace hplace'⟩

/-- Keys that do not spell the sentinel out are the same if they compare as equal. -/
theorem same_iff_compare (ha : a.sort ≠ some .sentinel) (hb : b.sort ≠ some .sentinel) :
    a.same b ↔ compare a b = .eq := by
  rw [same_iff, show compare a b =
    (compare a.partition b.partition).then (compareOptions a.sort b.sort) from rfl,
    Ordering.then_eq_eq]
  refine and_congr_right fun _ => ?_
  unfold place
  cases hsort : a.sort <;> cases hsort' : b.sort
  case none.none => simp [compareOptions]
  case none.some y =>
    have hne : y ≠ .sentinel := fun h => hb (h ▸ hsort')
    simp [compareOptions, KeyValue.compare_sentinel hne]
  case some.none x =>
    have hne : x ≠ .sentinel := fun h => ha (h ▸ hsort)
    simp [compareOptions, KeyValue.compare_sentinel hne]
  case some.some => rfl

end PrimaryKey

end KeyedStore
