import KeyedStore.Expression.Evaluation
import KeyedStore.Memory.KeyValue
import KeyedStore.Proofs.Except

/-!
# Comparison of key values

Expressions compare attribute values, and keys are compared in a total order. On values that
expressions can compare, the two orders agree but for the two zeros. So they do on texts and on
numbers that are finite and not negative zero; equality agrees on all values but numbers of the
other kind.
-/
namespace KeyedStore

open Std

namespace Binary64

/-- Whether a value has one place in the total order: it is finite, and not negative zero. -/
def IsPlain (x : Binary64) : Prop := x.isFinite ∧ ¬ (x.negative ∧ x.isZero)

instance (x : Binary64) : Decidable x.IsPlain := inferInstanceAs (Decidable (_ ∧ _))

theorem IsPlain.isNaN_eq_false {x : Binary64} (h : x.IsPlain) : x.isNaN = false := by
  have hfinite := of_decide_eq_true h.1
  unfold isNaN
  simp only [decide_eq_false_iff_not]
  omega

/-- Whether two values are the two zeros. -/
def areOppositeZeros (x y : Binary64) : Bool :=
  x.isZero && y.isZero && x.negative != y.negative

theorem IsPlain.not_areOppositeZeros {x y : Binary64} (hx : x.IsPlain) (hy : y.IsPlain) :
    ¬x.areOppositeZeros y := by
  intro hzeros
  simp only [areOppositeZeros, Bool.and_eq_true, bne_iff_ne] at hzeros
  obtain ⟨⟨hxzero, hyzero⟩, hsigns⟩ := hzeros
  have hxsign : x.negative = false := by simpa [hxzero] using hx.2
  have hysign : y.negative = false := by simpa [hyzero] using hy.2
  exact hsigns (hxsign.trans hysign.symm)

/-- The two orders differ on the two zeros only, as long as both values are numbers. -/
theorem compare_numericKey {x y : Binary64} (h : ¬x.areOppositeZeros y) :
    compare x.numericKey y.numericKey = x.totalCompare y := by
  have hkeys : (x.numericKey < y.numericKey ↔ x.totalKey < y.totalKey) ∧
      (x.numericKey = y.numericKey ↔ x.totalKey = y.totalKey) := by
    have hzeros : x.negative = y.negative ∨ x.magnitude ≠ 0 ∨ y.magnitude ≠ 0 := by
      grind [areOppositeZeros, isZero]
    unfold numericKey totalKey
    cases hxneg : x.negative <;> cases hyneg : y.negative <;>
      simp only [hxneg, hyneg, Bool.false_eq_true, if_false, if_true, reduceCtorEq,
        false_or, iff_self, and_self] at hzeros ⊢ <;>
      omega
  unfold totalCompare
  simp only [compare, compareOfLessAndEq, hkeys.1, hkeys.2]

end Binary64

namespace KeyValue

/-- Whether expressions can compare two values: they are of one type, and numbers are not without a
value. -/
def isComparable : KeyValue → KeyValue → Bool
  | string _, string _ | binary _, binary _ => true
  | number a, number b => !(numeral a).isNaN && !(numeral b).isNaN
  | _, _ => false

/-- Whether two numbers are the two zeros. -/
def areOppositeZeros : KeyValue → KeyValue → Bool
  | number a, number b => (numeral a).areOppositeZeros (numeral b)
  | _, _ => false

end KeyValue

/-- Whether a text is a numeral of a plain value. -/
def IsPlainNumeral (text : String) : Prop :=
  ∃ x, Binary64.read? text.toList = some x ∧ x.IsPlain

namespace AttributeValue

/-- Whether two values are texts, or numbers that are finite and not negative zero. -/
inductive AreOrdered : AttributeValue → AttributeValue → Prop where
  | string (a b : String) : AreOrdered (.string a) (.string b)
  | number {a b : String} (ha : IsPlainNumeral a) (hb : IsPlainNumeral b) :
      AreOrdered (.number a) (.number b)

/-- Whether two values, if they are numbers, are finite and not negative zero. -/
def ArePlain (value other : AttributeValue) : Prop :=
  ∀ a b, value = .number a → other = .number b → IsPlainNumeral a ∧ IsPlainNumeral b

variable {value other : AttributeValue} {name attr : String} {x y : KeyValue}

theorem AreOrdered.exists_ofAttribute (h : AreOrdered value other) (name : String) :
    ∃ x, KeyValue.ofAttribute name value = .ok x := by
  cases h <;> exact ⟨_, rfl⟩

/-- Values that are ordered with a third one are ordered with each other. -/
theorem AreOrdered.both {third : AttributeValue} (h : AreOrdered value other)
    (h' : AreOrdered value third) : AreOrdered other third := by
  cases h with
  | string a b =>
    cases h' with
    | string _ c => exact .string b c
  | number ha hb =>
    cases h' with
    | number _ hc => exact .number hb hc

/-- The order of numbers is that of the floating point values by which they are ordered as keys. -/
theorem compare?_number (a b : String) : (number a).compare? (number b) =
    (KeyValue.numeral a).compare? (KeyValue.numeral b) := by
  have hleft (x : Binary64) : (Binary64.nan false).compare? x = none := rfl
  have hright (x : Binary64) : x.compare? (Binary64.nan false) = none := by
    simp [Binary64.compare?, Binary64.isNaN, Binary64.nan, Binary64.infinityMagnitude]
  unfold compare? KeyValue.numeral
  cases ha : Binary64.read? a.toList <;> cases hb : Binary64.read? b.toList <;>
    simp [ha, hb, hleft, hright]

/-- Expressions order values as the keys that they are, if they can compare them. -/
theorem compare?_eq (hx : KeyValue.ofAttribute name value = .ok x)
    (hy : KeyValue.ofAttribute attr other = .ok y) (hzeros : ¬x.areOppositeZeros y) :
    value.compare? other = if x.isComparable y then some (compare x y) else none := by
  cases value with
  | string a | binary a =>
    cases hx
    cases other <;> cases hy <;> rfl
  | number a =>
    cases hx
    cases other with
    | number b =>
      cases hy
      have horder := Binary64.compare_numericKey hzeros
      show _ = if _ then some ((KeyValue.numeral a).totalCompare (KeyValue.numeral b)) else none
      rw [compare?_number, Binary64.compare?, horder]
      cases ha : (KeyValue.numeral a).isNaN <;> cases hb : (KeyValue.numeral b).isNaN <;>
        simp [KeyValue.isComparable, ha, hb]
    | _ => cases hy <;> rfl
  | _ => cases hx

/-- Expressions take values to be equal if they can compare them and they are the same key. -/
theorem equals_eq (hx : KeyValue.ofAttribute name value = .ok x)
    (hy : KeyValue.ofAttribute attr other = .ok y) (hzeros : ¬x.areOppositeZeros y) :
    value.equals other = (x.isComparable y && x.same y) := by
  cases value with
  | string a =>
    cases hx
    cases other with
    | string b =>
      cases hy
      show (string a == string b) = (compare a b == .eq)
      rw [Bool.eq_iff_iff]
      simp [LawfulEqCmp.compare_eq_iff_eq]
    | _ => cases hy <;> rfl
  | number a =>
    cases other with
    | number b =>
      have horder := compare?_eq hx hy hzeros
      cases hx
      cases hy
      show ((number a).compare? (number b) == some .eq) = _
      rw [horder]
      split <;> simp_all [KeyValue.same, compare]
    | _ =>
      cases hx
      cases hy <;> rfl
  | binary a =>
    cases hx
    cases other with
    | binary b =>
      cases hy
      show (binary a == binary b) = (compare a b == .eq)
      rw [Bool.eq_iff_iff]
      simp [LawfulEqCmp.compare_eq_iff_eq]
    | _ => cases hy <;> rfl
  | _ => cases hx

/-- Numbers that are finite and not negative zero are compared alike. -/
theorem isComparable_number {a b : String} (ha : IsPlainNumeral a) (hb : IsPlainNumeral b) :
    (KeyValue.number a).isComparable (.number b) ∧
      ¬(KeyValue.number a).areOppositeZeros (.number b) := by
  obtain ⟨u, hu, huplain⟩ := ha
  obtain ⟨v, hv, hvplain⟩ := hb
  have hunumeral : KeyValue.numeral a = u := by simp [KeyValue.numeral, hu]
  have hvnumeral : KeyValue.numeral b = v := by simp [KeyValue.numeral, hv]
  simp [KeyValue.isComparable, KeyValue.areOppositeZeros, hunumeral, hvnumeral,
    huplain.isNaN_eq_false, hvplain.isNaN_eq_false, huplain.not_areOppositeZeros hvplain]

/-- Values that are ordered are ordered as the keys that they are. -/
theorem AreOrdered.compare?_eq (h : AreOrdered value other)
    (hx : KeyValue.ofAttribute name value = .ok x)
    (hy : KeyValue.ofAttribute attr other = .ok y) : value.compare? other = some (compare x y) := by
  cases h with
  | string a b =>
    cases hx
    cases hy
    rfl
  | number ha hb =>
    obtain ⟨hcomparable, hzeros⟩ := isComparable_number ha hb
    have horder := AttributeValue.compare?_eq hx hy
    cases hx
    cases hy
    rw [horder hzeros, if_pos hcomparable]

/-- A value equals a key if it is the same key. -/
theorem ArePlain.equals_eq (h : ArePlain value other)
    (hy : KeyValue.ofAttribute attr other = .ok y) :
    value.equals other = (KeyValue.ofAttribute name value).toOption.any (·.same y) := by
  cases hx : KeyValue.ofAttribute name value with
  | error error =>
    cases value <;> first | cases hx; done | (cases other <;> cases hy <;> rfl)
  | ok x =>
    have hplain : ¬x.areOppositeZeros y ∧ (x.same y → x.isComparable y) := by
      cases value <;> cases hx <;> cases other <;> cases hy <;>
        first
        | exact ⟨Bool.false_ne_true, fun _ => rfl⟩
        | exact ⟨Bool.false_ne_true, fun hsame => absurd hsame Bool.false_ne_true⟩
        | obtain ⟨ha, hb⟩ := h _ _ rfl rfl
          exact ⟨(isComparable_number ha hb).2, fun _ => (isComparable_number ha hb).1⟩
    rw [AttributeValue.equals_eq hx hy hplain.1, Bool.eq_iff_iff]
    simp [Except.toOption]
    exact hplain.2

end AttributeValue

end KeyedStore
