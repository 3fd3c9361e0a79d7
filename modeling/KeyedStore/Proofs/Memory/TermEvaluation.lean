import KeyedStore.Expression.Parser
import KeyedStore.Proofs.Memory.Comparison
import KeyedStore.Proofs.Memory.KeyConditions
import Mathlib.Data.List.Basic

/-!
# Key conditions as filters

A term of a key condition is an expression too, and may be evaluated as a filter. As a key condition
it compares by the total order of keys, which has a place for every value; as a filter it is false
of values that expressions cannot compare. That is the only difference between the two, the two
zeros apart.
-/
namespace KeyedStore

open Std

namespace AttributeValue

variable {value other : AttributeValue} {name attr : String} {x y : KeyValue}

/-- The two zeros are one number. -/
theorem compare?_of_areOppositeZeros (hx : KeyValue.ofAttribute name value = .ok x)
    (hy : KeyValue.ofAttribute attr other = .ok y) (h : x.areOppositeZeros y) :
    value.compare? other = some .eq := by
  cases x with
  | number a =>
    cases y with
    | number b =>
      obtain rfl : value = .number a := by cases value <;> cases hx; rfl
      obtain rfl : other = .number b := by cases other <;> cases hy; rfl
      have hzero {x : Binary64} (hx : x.magnitude = 0) :
          x.isNaN = false ∧ x.numericKey = 0 := by
        simp [Binary64.isNaN, Binary64.numericKey, hx]
      have hmagnitudes :
          (KeyValue.numeral a).magnitude = 0 ∧ (KeyValue.numeral b).magnitude = 0 := by
        grind [KeyValue.areOppositeZeros, Binary64.areOppositeZeros, Binary64.isZero]
      obtain ⟨hleft, hright⟩ := hmagnitudes
      rw [compare?_number]
      simp [Binary64.compare?, hzero hleft, hzero hright]
    | _ => cases h
  | _ => cases h

/-- What is greater for expressions is greater as a key. -/
theorem compare_eq_gt (hx : KeyValue.ofAttribute name value = .ok x)
    (hy : KeyValue.ofAttribute attr other = .ok y) (h : value.compare? other = some .gt) :
    compare x y = .gt := by
  by_cases hzeros : x.areOppositeZeros y
  · rw [compare?_of_areOppositeZeros hx hy hzeros] at h
    cases h
  · rw [compare?_eq hx hy hzeros] at h
    split at h
    case isTrue => exact Option.some.inj h
    case isFalse => cases h

end AttributeValue

namespace SortCondition

/-- The values to which a condition compares. -/
def operands : SortCondition → List KeyValue
  | eq value | lt value | le value | gt value | ge value => [value]
  | between low high => [low, high]
  | beginsWith text => [.string text]

/-- Whether expressions can compare a value to all those to which a condition compares it. -/
def isComparable (condition : SortCondition) (value : KeyValue) : Bool :=
  condition.operands.all value.isComparable

end SortCondition

namespace KeyCondition

variable {bindings : Bindings} {item : Item} {term : Expr} {name : String}
  {condition : SortCondition} {value : AttributeValue} {key : KeyValue}

/-- The left side of a term is the path of an attribute. -/
theorem exists_path_of_keyPath {operand : Operand} (h : keyPath bindings operand = .ok name) :
    ∃ text, operand = .path text ∧ bindings.resolve text = .ok name := by
  cases operand with
  | path text => exact ⟨text, rfl, mapError_eq_ok_iff.1 h⟩
  | value text => cases h

theorem operand_of_keyPath {operand : Operand} (h : keyPath bindings operand = .ok name) :
    bindings.operand item operand = .ok (item.get? name) := by
  obtain ⟨text, rfl, hresolve⟩ := exists_path_of_keyPath h
  simp only [Bindings.operand, hresolve, ok_bind]
  rfl

/-- The values of a term are those of placeholders, whatever the item. -/
theorem operand_of_keyValue {operand : Operand} (h : keyValue bindings name operand = .ok key) :
    ∃ value, KeyValue.ofAttribute name value = .ok key ∧
      ∀ item, bindings.operand item operand = .ok (some value) := by
  obtain ⟨found, hfound, h⟩ := bind_eq_ok_iff.1 h
  have hfound := mapError_eq_ok_iff.1 hfound
  cases operand with
  | path text =>
    obtain ⟨name', -, hnone⟩ := bind_eq_ok_iff.1 hfound
    cases hnone
    cases h
  | value text =>
    cases hget : bindings.values.get? text with
    | none => simp [Bindings.operand, hget] at hfound
    | some value =>
      simp only [Bindings.operand, hget] at hfound
      cases hfound
      exact ⟨value, mapError_eq_ok_iff.1 h, fun item => by simp [Bindings.operand, hget]⟩

section Evaluation

variable {other : AttributeValue} {operand : KeyValue} {attr : String}

/-- A comparison of two values holds as an expression if expressions can compare them and they are
in the right order as keys. -/
theorem satisfies_eq (hkey : KeyValue.ofAttribute name value = .ok key)
    (hoperand : KeyValue.ofAttribute attr other = .ok operand)
    (hzeros : ¬key.areOppositeZeros operand) :
    value.satisfies .eq other = ((compare key operand).isEq && key.isComparable operand) ∧
    value.satisfies .lt other = ((compare key operand).isLT && key.isComparable operand) ∧
    value.satisfies .le other = ((compare key operand).isLE && key.isComparable operand) ∧
    value.satisfies .gt other = ((compare key operand).isGT && key.isComparable operand) ∧
    value.satisfies .ge other = ((compare key operand).isGE && key.isComparable operand) := by
  have hequals := AttributeValue.equals_eq hkey hoperand hzeros
  have horder := AttributeValue.compare?_eq hkey hoperand hzeros
  unfold AttributeValue.satisfies
  rw [hequals, horder, same_eq]
  cases key.isComparable operand <;> simp [SortCondition.accepts]

theorem evaluate_compare {left right : Operand} {op : Comparison}
    (hterm : ofTerm bindings (.compare left op right) = .ok (name, condition))
    (hget : item.get? name = some value) (hkey : KeyValue.ofAttribute name value = .ok key)
    (hzeros : ∀ operand ∈ condition.operands, ¬key.areOppositeZeros operand) :
    bindings.evaluate item (.compare left op right) =
      .ok (condition.accepts key && condition.isComparable key) := by
  obtain ⟨attr, hpath, hterm⟩ := bind_eq_ok_iff.1 hterm
  obtain ⟨operand, hvalue, hterm⟩ := bind_eq_ok_iff.1 hterm
  obtain ⟨other, hoperand, hright⟩ := operand_of_keyValue hvalue
  cases op with
  | ne => cases hterm
  | eq | lt | le | gt | ge =>
    cases hterm
    obtain ⟨heq, hlt, hle, hgt, hge⟩ :=
      satisfies_eq hkey hoperand (hzeros operand List.mem_cons_self)
    simp [Bindings.evaluate, operand_of_keyPath hpath, hright, hget, heq, hlt, hle, hgt, hge,
      SortCondition.accepts, SortCondition.isComparable, SortCondition.operands]

theorem evaluate_between {tested low high : Operand}
    (hterm : ofTerm bindings (.between tested low high) = .ok (name, condition))
    (hget : item.get? name = some value) (hkey : KeyValue.ofAttribute name value = .ok key)
    (hzeros : ∀ operand ∈ condition.operands, ¬key.areOppositeZeros operand) :
    bindings.evaluate item (.between tested low high) =
      .ok (condition.accepts key && condition.isComparable key) := by
  obtain ⟨attr, hpath, hterm⟩ := bind_eq_ok_iff.1 hterm
  obtain ⟨x, hx, hterm⟩ := bind_eq_ok_iff.1 hterm
  obtain ⟨y, hy, hterm⟩ := bind_eq_ok_iff.1 hterm
  split at hterm
  case isTrue => cases hterm
  case isFalse hordered =>
    cases hterm
    obtain ⟨first, hfirst, hlow⟩ := operand_of_keyValue hx
    obtain ⟨last, hlast, hhigh⟩ := operand_of_keyValue hy
    -- Bounds in the wrong order are refused in a key condition, so the filter does not fail.
    have hbounds : first.compare? last ≠ some .gt := fun hgt =>
      hordered (AttributeValue.compare_eq_gt hfirst hlast hgt)
    obtain ⟨-, -, -, -, hge⟩ := satisfies_eq hkey hfirst (hzeros x List.mem_cons_self)
    obtain ⟨-, -, hle, -⟩ := satisfies_eq hkey hlast
      (hzeros y (List.mem_cons_of_mem _ List.mem_cons_self))
    simp only [Bindings.evaluate, operand_of_keyPath hpath, hlow, hhigh, hget, ok_bind,
      Bindings.between, hbounds, if_false, hge, hle, SortCondition.accepts,
      SortCondition.isComparable, SortCondition.operands, List.all_cons, List.all_nil,
      Bool.and_true]
    ac_rfl

theorem evaluate_call {function : ConditionFunction} {arguments : List Operand}
    (hterm : ofTerm bindings (.call function arguments) = .ok (name, condition))
    (hget : item.get? name = some value) (hkey : KeyValue.ofAttribute name value = .ok key) :
    bindings.evaluate item (.call function arguments) =
      .ok (condition.accepts key && condition.isComparable key) := by
  unfold ofTerm at hterm
  split at hterm
  case h_3 target start heq =>
    cases heq
    obtain ⟨attr, hpath, hterm⟩ := bind_eq_ok_iff.1 hterm
    obtain ⟨operand, hvalue, hterm⟩ := bind_eq_ok_iff.1 hterm
    cases operand with
    | string text =>
      cases hterm
      obtain ⟨text', rfl, hresolve⟩ := exists_path_of_keyPath hpath
      obtain ⟨other, hother, hstart⟩ := operand_of_keyValue hvalue
      obtain rfl : other = .string text := by cases other <;> cases hother; rfl
      have hcall : bindings.evaluate item (.call .beginsWith [.path text', start]) =
          Bindings.beginsWith (some value) (some (.string text)) := by
        simp [Bindings.evaluate, Bindings.call, Bindings.arity, hresolve, hstart, hget]
      rw [hcall]
      cases value <;> cases hkey <;>
        simp [Bindings.beginsWith, SortCondition.accepts, SortCondition.isComparable,
          SortCondition.operands, KeyValue.isComparable]
    | number _ | binary _ | sentinel => cases hterm
  all_goals simp_all

end Evaluation

/-- A term of a key condition, evaluated as a filter, holds for the values that meet the condition
and that expressions can compare, provided that no zero is compared to the other one. -/
theorem evaluate_of_ofTerm (hterm : ofTerm bindings term = .ok (name, condition))
    (hget : item.get? name = some value) (hkey : KeyValue.ofAttribute name value = .ok key)
    (hzeros : ∀ operand ∈ condition.operands, ¬key.areOppositeZeros operand) :
    bindings.evaluate item term = .ok (condition.accepts key && condition.isComparable key) := by
  cases term with
  | compare left op right => exact evaluate_compare hterm hget hkey hzeros
  | between tested low high => exact evaluate_between hterm hget hkey hzeros
  | call function arguments => exact evaluate_call hterm hget hkey
  | member | and | or | not => cases hterm

/-- A term of a key condition selects the same items as a filter exactly if it holds, as a key
condition, for no value that expressions cannot compare. No zero is to be compared to the other
one. -/
theorem evaluate_eq_accepts_iff (hterm : ofTerm bindings term = .ok (name, condition))
    (hget : item.get? name = some value) (hkey : KeyValue.ofAttribute name value = .ok key)
    (hzeros : ∀ operand ∈ condition.operands, ¬key.areOppositeZeros operand) :
    bindings.evaluate item term = .ok (condition.accepts key && condition.isComparable key) ∧
      (bindings.evaluate item term = .ok (condition.accepts key) ↔
        (condition.accepts key → condition.isComparable key)) := by
  have hvalue := evaluate_of_ofTerm hterm hget hkey hzeros
  refine ⟨hvalue, ?_⟩
  rw [hvalue]
  cases condition.accepts key <;> simp

def windowBindings : Bindings where
  names := [("#D", "due")]
  values := [(":from", .number "1e1"), (":to", .number "12.50")]

def dueWindow : Expr := .between (.path "#D") (.value ":from") (.value ":to")

/-- The end of the window, in another spelling, lies in it. -/
theorem evaluate_dueWindow :
    ofTerm windowBindings dueWindow =
        .ok ("due", .between (.number "1e1") (.number "12.50")) ∧
      (∀ operand ∈ [KeyValue.number "1e1", .number "12.50"],
        ¬(KeyValue.number "+12.5").areOppositeZeros operand) ∧
      windowBindings.evaluate [("due", .number "+12.5")] dueWindow = .ok true := by
  have hterm : ofTerm windowBindings dueWindow =
      .ok ("due", .between (.number "1e1") (.number "12.50")) := by
    decide +kernel
  have hzeros : ∀ operand ∈ [KeyValue.number "1e1", .number "12.50"],
      ¬(KeyValue.number "+12.5").areOppositeZeros operand := by
    decide +kernel
  have hvalue := (@evaluate_eq_accepts_iff _ [("due", .number "+12.5")] _ _ _ _ _ hterm rfl rfl
    hzeros).1
  refine ⟨hterm, hzeros, hvalue.trans ?_⟩
  decide +kernel

/-- Whether a condition on a date, with an operand for its placeholder, holds for a date as a key
condition, and whether it holds as a filter. -/
def Holds (text : String) (operand date : AttributeValue) (asKey asFilter : Bool) : Prop :=
  ∃ term condition key, Expr.parse text = .ok term ∧
    ofTerm { values := [(":due", operand)] } term = .ok ("due", condition) ∧
    KeyValue.ofAttribute "due" date = .ok key ∧ condition.accepts key = asKey ∧
    Bindings.evaluate { values := [(":due", operand)] } [("due", date)] term = .ok asFilter

/-- In the order of keys, numbers come after texts, what is no number comes after all numbers, and
one zero comes before the other. Expressions do not compare the first two pairs, and the zeros are
equal for them. -/
theorem evaluate_ne_accepts :
    Holds "due > :due" (.string "a") (.number "3") true false ∧
    Holds "due > :due" (.number "3") (.number "soon") true false ∧
    Holds "due = :due" (.number "0") (.number "-0") false true := by
  refine ⟨⟨.compare (.path "due") .gt (.value ":due"), .gt (.string "a"), .number "3", ?_, rfl, rfl,
    rfl, rfl⟩, ⟨.compare (.path "due") .gt (.value ":due"), .gt (.number "3"), .number "soon", ?_,
    rfl, rfl, ?_, ?_⟩, .compare (.path "due") .eq (.value ":due"), .eq (.number "0"), .number "-0",
    ?_, rfl, rfl, ?_, ?_⟩ <;> decide +kernel

end KeyCondition

end KeyedStore
