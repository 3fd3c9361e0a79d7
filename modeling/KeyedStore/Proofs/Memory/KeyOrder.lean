import KeyedStore.Memory.Page

/-!
# Order of keys

Key values, keys and cursors are totally ordered up to spelling: values that are the same key
compare as equal and have the same place among all others.
-/
namespace KeyedStore

open Std

namespace KeyValue

/-- The text of a string, and nothing in other values. -/
def textPart : KeyValue → String
  | string text => text
  | _ => ""

/-- The place of a number among the numbers. -/
def numberPart : KeyValue → Int
  | number text => (numeral text).totalKey
  | _ => 0

/-- The bytes of a binary. -/
def bytesPart : KeyValue → List UInt8
  | binary bytes => bytes
  | _ => []

/-- The order of key values goes by type first and by content then. -/
theorem order_eq : order = compareLex (compareOn rank)
    (compareLex (compareOn textPart)
      (compareLex (compareOn numberPart) (compareOn bytesPart))) := by
  funext a b
  cases a <;> cases b <;> first
    | rfl
    | simp [order, compareLex, compareOn, rank, textPart, numberPart, bytesPart,
        Binary64.totalCompare]

instance : TransOrd KeyValue := by
  have htrans : TransCmp order := order_eq ▸ inferInstance
  exact htrans

theorem same_iff {a b : KeyValue} : a.same b ↔ compare a b = .eq := by
  simp [same, compare]

end KeyValue

instance {α : Type} [Ord α] [TransOrd α] : TransCmp (@compareOptions α _) where
  eq_swap {a b} := by
    cases a <;> cases b <;> first
      | rfl
      | exact @OrientedCmp.eq_swap α compare _ _ _
  isLE_trans {a b c} hab hbc := by
    cases a with
    | none => cases c <;> rfl
    | some a =>
      cases b with
      | none => cases hab
      | some b =>
        cases c with
        | none => cases hbc
        | some c => exact @TransCmp.isLE_trans α compare _ _ _ _ hab hbc

namespace PrimaryKey

theorem order_eq : order =
    compareLex (compareOn partition) (fun a b => compareOptions a.sort b.sort) := rfl

instance : TransOrd PrimaryKey := by
  have hsort : TransCmp fun a b : PrimaryKey => compareOptions a.sort b.sort := {
    eq_swap := OrientedCmp.eq_swap
    isLE_trans := TransCmp.isLE_trans }
  have htrans : TransCmp order := order_eq ▸ inferInstance
  exact htrans

end PrimaryKey

namespace Cursor

theorem order_eq : order =
    compareLex (fun a b => compareOptions a.index b.index) (compareOn key) := rfl

instance : TransOrd Cursor := by
  have hindex : TransCmp fun a b : Cursor => compareOptions a.index b.index := {
    eq_swap := OrientedCmp.eq_swap
    isLE_trans := TransCmp.isLE_trans }
  have htrans : TransCmp order := order_eq ▸ inferInstance
  exact htrans

end Cursor

end KeyedStore
