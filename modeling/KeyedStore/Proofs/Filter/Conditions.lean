import KeyedStore.Filter.Basic
import KeyedStore.Proofs.Except
import KeyedStore.Proofs.Json.DistinctKeys

/-!
# Conditions of filters

A filter has one condition for each key of the object that it is read from.
-/
namespace KeyedStore.Filter

/-- Conditions are on the attributes that their keys name, in the same order. -/
theorem map_fst_conditionsOfJson {entries : Record} {conditions : List (String × Condition)}
    (h : conditionsOfJson (some (.obj entries)) = .ok conditions) :
    conditions.map (·.1) = entries.map (·.1) := by
  rw [conditionsOfJson] at h
  induction entries generalizing conditions with
  | nil =>
    cases h
    rfl
  | cons entry rest ih =>
    rw [List.mapM_cons] at h
    obtain ⟨first, hfirst, h⟩ := bind_eq_ok_iff.1 h
    obtain ⟨others, hothers, h⟩ := bind_eq_ok_iff.1 h
    obtain ⟨condition, -, hfirst⟩ := bind_eq_ok_iff.1 hfirst
    cases h
    cases hfirst
    rw [List.map_cons, List.map_cons, ih hothers]

/-- No two conditions of a filter are on one attribute. -/
theorem nodup_of_ofJson {json : Json} (hdistinct : json.HasDistinctKeys) {filter : Filter}
    (h : ofJson json = .ok filter) : (filter.conditions.map (·.1)).Nodup := by
  cases json with
  | null =>
    cases h
    exact .nil
  | obj entries =>
    obtain ⟨conditions, hconditions, h⟩ := bind_eq_ok_iff.1 h
    obtain ⟨order, -, h⟩ := bind_eq_ok_iff.1 h
    obtain ⟨limit, -, h⟩ := bind_eq_ok_iff.1 h
    obtain ⟨offset, -, h⟩ := bind_eq_ok_iff.1 h
    obtain ⟨minResults, -, h⟩ := bind_eq_ok_iff.1 h
    cases h
    cases hwhere : Record.get? entries "where" with
    | none =>
      rw [hwhere] at hconditions
      cases hconditions
      exact .nil
    | some json =>
      rw [hwhere] at hconditions
      have hproper := hdistinct.isProper.get? hwhere
      cases json with
      | null =>
        cases hconditions
        exact .nil
      | obj conditions =>
        rw [map_fst_conditionsOfJson hconditions]
        exact hproper.isProper.distinct
      | bool _ | num _ | str _ | arr _ => cases hconditions
  | bool _ | num _ | str _ | arr _ => cases h

end KeyedStore.Filter
