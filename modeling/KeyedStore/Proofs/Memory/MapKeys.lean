import KeyedStore.Memory.Page
import KeyedStore.Proofs.Memory.KeyHashes
import KeyedStore.Proofs.OrderedMap
import Mathlib.Data.List.Basic

/-!
# Key values as keys of maps

The order of key values, their equality and their hash fit together: a hash map and a search tree
find the same under each key, whatever a hasher makes of what it is fed. The keys of items and the
cursors are ordered by their fields.
-/
namespace KeyedStore

open Std

/-- Whether a comparison is a total order up to an equality. -/
structure IsTotalOrder {κ : Type} (order : κ → κ → Ordering) (same : κ → κ → Bool) : Prop where
  refl : ∀ a, order a a = .eq
  swap : ∀ a b, order a b = (order b a).swap
  trans : ∀ a b c, (order a b).isLE → (order b c).isLE → (order a c).isLE
  same_iff : ∀ a b, same a b ↔ order a b = .eq

theorem isTotalOrder_of_transCmp {κ : Type} {order : κ → κ → Ordering} {same : κ → κ → Bool}
    [TransCmp order] (h : ∀ a b, same a b ↔ order a b = .eq) : IsTotalOrder order same where
  refl _ := ReflCmp.compare_self
  swap _ _ := OrientedCmp.eq_swap
  trans _ _ _ := TransCmp.isLE_trans
  same_iff := h

section Fields

/-- Whether optional key values are the same. -/
def sameOptions : Option KeyValue → Option KeyValue → Bool
  | none, none => true
  | some a, some b => a.same b
  | _, _ => false

/-- Whether keys of items are the same, field by field. -/
def PrimaryKey.equals (a b : PrimaryKey) : Bool :=
  a.partition.same b.partition && sameOptions a.sort b.sort

/-- Whether cursors are the same, field by field. -/
def Cursor.equals (a b : Cursor) : Bool := sameOptions a.index b.index && a.key.equals b.key

theorem sameOptions_iff {a b : Option KeyValue} :
    sameOptions a b ↔ compareOptions a b = .eq := by
  cases a <;> cases b <;> simp [sameOptions, compareOptions, KeyValue.same_iff]

theorem PrimaryKey.equals_iff {a b : PrimaryKey} : a.equals b ↔ compare a b = .eq := by
  rw [show compare a b =
    (compare a.partition b.partition).then (compareOptions a.sort b.sort) from rfl]
  simp [equals, KeyValue.same_iff, sameOptions_iff]

theorem Cursor.equals_iff {a b : Cursor} : a.equals b ↔ compare a b = .eq := by
  rw [show compare a b =
    (compareOptions a.index b.index).then (compare a.key b.key) from rfl]
  simp [equals, PrimaryKey.equals_iff, sameOptions_iff]

end Fields

/-- A change of a map. -/
inductive MapChange (κ α : Type) where
  | set (key : κ) (value : α)
  | remove (key : κ)

section Lookups

variable {κ α : Type} [Ord κ] [BEq κ] [Hashable κ]

namespace MapChange

/-- Makes a change in an ordered map. -/
def applyTo (map : OrderedMap κ α) : MapChange κ α → OrderedMap κ α
  | set key value => map.insert key value
  | remove key => map.erase key

/-- Makes a change in a search tree. -/
def applyToTree (tree : TreeMap κ α) : MapChange κ α → TreeMap κ α
  | set key value => tree.insert key value
  | remove key => tree.erase key

/-- Makes a change in a hash map. -/
def applyToTable (table : HashMap κ α) : MapChange κ α → HashMap κ α
  | set key value => table.insert key value
  | remove key => table.erase key

end MapChange

/-- Whether a hash map and a search tree find under each key what an ordered map does. -/
structure FindsAlike (table : HashMap κ α) (tree : TreeMap κ α) (map : OrderedMap κ α) : Prop where
  table : ∀ key : κ, table[key]? = map.get? key
  tree : ∀ key : κ, tree[key]? = map.get? key

variable [TransOrd κ] [LawfulBEqOrd κ] [LawfulHashable κ] {table : HashMap κ α}
  {tree : TreeMap κ α} {map : OrderedMap κ α}

/-- The step: a change keeps what is found alike. -/
theorem FindsAlike.apply (h : FindsAlike table tree map) (change : MapChange κ α) :
    FindsAlike (change.applyToTable table) (change.applyToTree tree) (change.applyTo map) := by
  -- The maps differ only in how they see that a key is the one that is changed.
  have hcomm (key other : κ) : compare key other = .eq ↔ compare other key = .eq :=
    ⟨OrientedCmp.eq_symm, OrientedCmp.eq_symm⟩
  have hbeq (key other : κ) : (key == other) = true ↔ compare other key = .eq :=
    compare_eq_iff_beq.symm.trans (hcomm key other)
  cases change with
  | set key value =>
    refine ⟨fun other => ?_, fun other => ?_⟩
    · simp only [MapChange.applyToTable, MapChange.applyTo, HashMap.getElem?_insert,
        OrderedMap.get?_insert, hbeq, h.table]
    · simp only [MapChange.applyToTree, MapChange.applyTo, TreeMap.getElem?_insert,
        OrderedMap.get?_insert, hcomm key, h.tree]
  | remove key =>
    refine ⟨fun other => ?_, fun other => ?_⟩
    · simp only [MapChange.applyToTable, MapChange.applyTo, HashMap.getElem?_erase,
        OrderedMap.get?_erase, hbeq, h.table]
    · simp only [MapChange.applyToTree, MapChange.applyTo, TreeMap.getElem?_erase,
        OrderedMap.get?_erase, hcomm key, h.tree]

/-- The run: changes keep what is found alike. -/
theorem FindsAlike.foldl (h : FindsAlike table tree map) (changes : List (MapChange κ α)) :
    FindsAlike (changes.foldl MapChange.applyToTable table)
      (changes.foldl MapChange.applyToTree tree) (changes.foldl MapChange.applyTo map) := by
  induction changes generalizing table tree map with
  | nil => exact h
  | cons change changes ih => exact ih (h.apply change)

/-- After any changes of empty maps, a lookup finds the same in each of them. -/
theorem findsAlike_changes (changes : List (MapChange κ α)) :
    FindsAlike (changes.foldl MapChange.applyToTable ∅) (changes.foldl MapChange.applyToTree ∅)
      (changes.foldl MapChange.applyTo []) :=
  FindsAlike.foldl ⟨fun _ => HashMap.getElem?_empty, fun _ => TreeMap.getElem?_emptyc⟩ changes

end Lookups

/-- How keys are hashed: by a hasher, from the state in which it starts to the hash in the end. -/
structure Hashing (σ : Type) extends Hasher σ where
  start : σ
  finish : σ → UInt64

namespace Hashing

variable {σ : Type}

/-- The hash of a key value. -/
def hash (hashing : Hashing σ) (key : KeyValue) : UInt64 :=
  hashing.finish (key.feed hashing.toHasher hashing.start)

theorem lawfulHashable (hashing : Hashing σ) :
    @LawfulHashable KeyValue ⟨KeyValue.same⟩ ⟨hashing.hash⟩ :=
  @LawfulHashable.mk KeyValue ⟨KeyValue.same⟩ ⟨hashing.hash⟩ fun _ _ h =>
    congrArg hashing.finish (KeyValue.feed_congr hashing.toHasher hashing.start h)

end Hashing

theorem KeyValue.lawfulBEqOrd : @LawfulBEqOrd KeyValue ⟨KeyValue.same⟩ _ :=
  @LawfulBEqCmp.mk KeyValue ⟨KeyValue.same⟩ compare same_iff.symm

/-- Key values are lawful keys of maps. Their order is total, their equality is that of the order,
and they feed the same bytes to a hasher exactly if they are the same key, so that after any changes
a hash map and a search tree find the same under each key. The orders of the keys of items and of
cursors are total with them. -/
theorem KeyValue.isLawfulKey :
    IsTotalOrder KeyValue.order KeyValue.same ∧
      (∀ (layout : ByteOrder) (a b : KeyValue),
        a.same b ↔ a.fedBytes layout = b.fedBytes layout) ∧
      (∀ (α σ : Type) (hashing : Hashing σ) (changes : List (MapChange KeyValue α)),
        letI : BEq KeyValue := ⟨KeyValue.same⟩
        letI : Hashable KeyValue := ⟨hashing.hash⟩
        FindsAlike (changes.foldl MapChange.applyToTable ∅)
          (changes.foldl MapChange.applyToTree ∅) (changes.foldl MapChange.applyTo [])) ∧
      IsTotalOrder PrimaryKey.order PrimaryKey.equals ∧
      IsTotalOrder Cursor.order Cursor.equals := by
  refine ⟨?_, fun layout a b => same_iff_fedBytes_eq, fun α σ hashing changes => ?_, ?_, ?_⟩
  · have htrans : TransCmp order := inferInstanceAs (TransOrd KeyValue)
    exact isTotalOrder_of_transCmp fun _ _ => same_iff
  · exact @findsAlike_changes KeyValue α _ ⟨same⟩ ⟨hashing.hash⟩ _ lawfulBEqOrd
      hashing.lawfulHashable changes
  · have htrans : TransCmp PrimaryKey.order := inferInstanceAs (TransOrd PrimaryKey)
    exact isTotalOrder_of_transCmp fun _ _ => PrimaryKey.equals_iff
  · have htrans : TransCmp Cursor.order := inferInstanceAs (TransOrd Cursor)
    exact isTotalOrder_of_transCmp fun _ _ => Cursor.equals_iff

end KeyedStore
