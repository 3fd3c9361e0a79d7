import KeyedStore.Proofs.Memory.Comparison
import KeyedStore.Proofs.Memory.KeyConditions
import KeyedStore.Proofs.Plan.Verdict

/-!
# Rendered conditions as key terms

A rendered condition may be evaluated as an expression or used as a term of a key condition. It
holds for the same items either way, if the values that it compares are ordered alike.
-/
namespace KeyedStore

open KeyCondition

/-- Whether a restriction compares a value in the way in which keys are compared: for an order, both
are texts or plain numbers, and for an equality, numbers are plain. -/
def Restriction.IsComparable (schema : Schema) (name : String) (value : AttributeValue) :
    Restriction → Prop
  | compare .eq json => value.ArePlain (schema.bound name json)
  | compare _ json => value.AreOrdered (schema.bound name json)
  | between first last => value.AreOrdered (schema.bound name first) ∧
      value.AreOrdered (schema.bound name last)
  | member _ => True

namespace Placeholders

variable {placeholders : Placeholders} {schema : Schema} {item : Item} {name attr : String}
  {condition : SortCondition}

theorem keyPath_of_attribute? (hsound : placeholders.IsSound) {operand : Operand}
    (h : placeholders.attribute? operand = some name) :
    keyPath placeholders.bindings operand = .ok name := by
  obtain ⟨text, rfl, hresolve⟩ := exists_resolve_of_attribute? hsound h
  simp only [keyPath, hresolve]
  rfl

/-- The key value of an operand is that of the value it stands for. -/
theorem keyValue_of_value? {operand : Operand} {json : Json} {value : KeyValue}
    (h : placeholders.value? operand = some (schema.bind name json))
    (hvalue : keyValue placeholders.bindings attr operand = .ok value) :
    KeyValue.ofAttribute attr (schema.bound name json) = .ok value := by
  obtain ⟨found, hfound, hvalue⟩ := bind_eq_ok_iff.1 hvalue
  have hoperand := mapError_eq_ok_iff.1 hfound
  rw [operand_of_value? h] at hoperand
  cases hoperand
  exact mapError_eq_ok_iff.1 hvalue

/-- A comparison that is a term of a key condition holds where its expression does. -/
theorem meets_iff_of_compare (hsound : placeholders.IsSound) {path operand : Operand}
    {op : Comparison} {json : Json} (hpath : placeholders.attribute? path = some name)
    (hvalue : placeholders.value? operand = some (schema.bind name json))
    (hterm : ofTerm placeholders.bindings (.compare path op operand) = .ok (attr, condition))
    (hdata : ∀ value, item.get? name = some value →
      (Restriction.compare op json).IsComparable schema name value) :
    attr = name ∧ (meets name condition item ↔
      (Restriction.compare op json).verdict schema name (item.get? name) = .ok true) := by
  unfold meets
  rw [ofTerm, keyPath_of_attribute? hsound hpath, ok_bind] at hterm
  obtain ⟨value, hkey, hterm⟩ := bind_eq_ok_iff.1 hterm
  have hbound := keyValue_of_value? hvalue hkey
  cases hget : item.get? name with
  | none => cases op <;> cases hterm <;> simp [Restriction.verdict]
  | some stored =>
    have hcomparable := hdata stored hget
    cases op with
    | ne => cases hterm
    | eq =>
      cases hterm
      have hequals : stored.equals (schema.bound name json) =
          (KeyValue.ofAttribute name stored).toOption.any (·.same value) :=
        AttributeValue.ArePlain.equals_eq hcomparable hbound
      simp [Restriction.verdict, AttributeValue.satisfies, hequals, same_eq]
    | lt | le | gt | ge =>
      cases hterm
      have hordered : stored.AreOrdered (schema.bound name json) := hcomparable
      obtain ⟨x, hx⟩ := hordered.exists_ofAttribute name
      simp [Restriction.verdict, AttributeValue.satisfies, hordered.compare?_eq hx hbound, hx,
        Except.toOption, SortCondition.accepts]

/-- A range that is a term of a key condition holds where its expression does. A term whose ends are
in the wrong order is refused. -/
theorem meets_iff_of_between (hsound : placeholders.IsSound) {path low high : Operand}
    {first last : Json} (hpath : placeholders.attribute? path = some name)
    (hlow : placeholders.value? low = some (schema.bind name first))
    (hhigh : placeholders.value? high = some (schema.bind name last))
    (hterm : ofTerm placeholders.bindings (.between path low high) = .ok (attr, condition))
    (hdata : ∀ value, item.get? name = some value →
      (Restriction.between first last).IsComparable schema name value) :
    attr = name ∧ (meets name condition item ↔
      (Restriction.between first last).verdict schema name (item.get? name) = .ok true) := by
  unfold meets
  rw [ofTerm, keyPath_of_attribute? hsound hpath, ok_bind] at hterm
  obtain ⟨x, hx, hterm⟩ := bind_eq_ok_iff.1 hterm
  obtain ⟨y, hy, hterm⟩ := bind_eq_ok_iff.1 hterm
  split at hterm
  case isTrue => cases hterm
  case isFalse horder =>
    cases hterm
    cases hget : item.get? name with
    | none => simp [Restriction.verdict]
    | some stored =>
      obtain ⟨hfirst, hlast⟩ := hdata stored hget
      have hx := keyValue_of_value? hlow hx
      have hy := keyValue_of_value? hhigh hy
      obtain ⟨z, hz⟩ := hfirst.exists_ofAttribute name
      have hbounds := (hfirst.both hlast).compare?_eq hx hy
      simp [Restriction.verdict, Bindings.between, AttributeValue.satisfies, hbounds, horder,
        hfirst.compare?_eq hz hx, hlast.compare?_eq hz hy, hz, Except.toOption,
        SortCondition.accepts]

/-- A rendered condition that is a term of a key condition holds where its expression does. -/
theorem meets_iff (hsound : placeholders.IsSound) {r : Restriction} {e : Expr}
    (h : r.IsRendered schema placeholders name e)
    (hterm : ofTerm placeholders.bindings e = .ok (attr, condition))
    (hdata : ∀ value, item.get? name = some value → r.IsComparable schema name value) :
    attr = name ∧ (meets name condition item ↔
      r.verdict schema name (item.get? name) = .ok true) := by
  cases h with
  | compare hpath hvalue => exact meets_iff_of_compare hsound hpath hvalue hterm hdata
  | between hpath hlow hhigh => exact meets_iff_of_between hsound hpath hlow hhigh hterm hdata
  | member hpath hne hvalues => cases hterm

end Placeholders

end KeyedStore
