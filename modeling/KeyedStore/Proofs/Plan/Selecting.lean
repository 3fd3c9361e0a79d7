import KeyedStore.Proofs.Plan.Rendering

/-!
# Selected key conditions

The fragments of a filter are its conditions rendered one by one, each with the slot that its role
allows. A selection distributes them: one may select the partition, another one may narrow it, and
all others are left as filters.
-/
namespace KeyedStore

namespace Schema

/-- What a condition may become in a query. -/
def slot (schema : Schema) (filter : Filter) (c : String × Condition) : Slot :=
  match schema.role filter c.1, c.2 with
  | .hash index, .equals _ => .hash index
  | .range index, condition => if condition.sortRestriction?.isSome then .range index else .filter
  | _, _ => .filter

/-- What a condition asks in a query: a list of two is a range on a sort key. -/
def asked (schema : Schema) (filter : Filter) (c : String × Condition) : Restriction :=
  match schema.role filter c.1 with
  | .range _ => c.2.sortRestriction?.getD c.2.restriction
  | _ => c.2.restriction

variable {schema : Schema} {filter : Filter} {before after : Placeholders} {selection : Selection}

/-- Conditions are rendered by the roles of their attributes. -/
theorem renderFragments_congr {other : Filter} (h : schema.role filter = schema.role other) :
    schema.renderFragments filter = schema.renderFragments other := by
  funext placeholders conditions
  induction conditions generalizing placeholders with
  | nil => rfl
  | cons c rest ih => simp only [renderFragments, renderFragment, h, ih]

/-- A filter is planned as a query if it can be compiled for one and selects a partition. -/
theorem compileQuery_of_plan (h : schema.plan filter = .ok (.query selection)) :
    schema.compileQuery filter = .ok selection ∧ selection.hashCondition.isSome := by
  obtain ⟨query, hquery, h⟩ := bind_eq_ok_iff.1 h
  split at h
  case isTrue hhash =>
    cases h
    exact ⟨hquery, hhash⟩
  case isFalse =>
    obtain ⟨scan, -, h⟩ := bind_eq_ok_iff.1 h
    cases h

/-- A filter that is planned as a scan is compiled for one. -/
theorem compileScan_of_plan (h : schema.plan filter = .ok (.scan selection)) :
    schema.compileScan filter = .ok selection := by
  obtain ⟨query, -, h⟩ := bind_eq_ok_iff.1 h
  split at h
  case isTrue => cases h
  case isFalse =>
    obtain ⟨scan, hscan, h⟩ := bind_eq_ok_iff.1 h
    cases h
    exact hscan

theorem renderSortKey?_eq_none_iff {name : String} {condition : Condition} :
    schema.renderSortKey? before name condition = none ↔ condition.sortRestriction? = none := by
  unfold renderSortKey? Condition.sortRestriction?
  split <;> simp_all

theorem rendering_renderFragment (hsound : before.IsSound) {name : String} {condition : Condition}
    {fragment : Fragment}
    (h : schema.renderFragment filter before name condition = .ok (fragment, after)) :
    Rendering schema before name (schema.asked filter (name, condition)) fragment.condition after ∧
      fragment.slot = schema.slot filter (name, condition) := by
  have hfiltered (h : (schema.renderFilter before name condition >>= fun result =>
      .ok (⟨result.1, .filter⟩, result.2)) = .ok (fragment, after)) :
      Rendering schema before name condition.restriction fragment.condition after ∧
        fragment.slot = .filter := by
    obtain ⟨⟨e, last⟩, hrender, h⟩ := bind_eq_ok_iff.1 h
    cases h
    exact ⟨rendering_renderFilter hsound hrender, rfl⟩
  unfold renderFragment at h
  unfold asked slot
  cases hrole : schema.role filter name with
  | plain =>
    rw [hrole] at h
    simpa only [hrole] using hfiltered h
  | hash index =>
    rw [hrole] at h
    cases condition with
    | equals value =>
      cases h
      exact ⟨rendering_renderCompare hsound .eq value, rfl⟩
    | operator op value | range first last | inSet values | list values =>
      simpa only [hrole] using hfiltered h
  | range index =>
    rw [hrole] at h
    cases hsort : schema.renderSortKey? before name condition with
    | none =>
      have hnone := renderSortKey?_eq_none_iff.1 hsort
      simp only [hsort] at h
      simpa [hrole, hnone] using hfiltered h
    | some result =>
      obtain ⟨r, hr, hrendering⟩ := rendering_renderSortKey? hsound hsort
      simp only [hsort] at h
      cases h
      simpa [hrole, hr] using hrendering

/-- The fragments of a filter are the renderings of its conditions. -/
theorem renderings_renderFragments (hsound : before.IsSound)
    {conditions : List (String × Condition)} {fragments : List Fragment}
    (h : schema.renderFragments filter before conditions = .ok (fragments, after)) :
    Renderings schema before (conditions.map fun c => (c.1, schema.asked filter c))
        (fragments.map (·.condition)) after ∧
      fragments.map (·.slot) = conditions.map (schema.slot filter) := by
  induction conditions generalizing before fragments with
  | nil =>
    cases h
    exact ⟨.nil hsound, rfl⟩
  | cons condition rest ih =>
    obtain ⟨name, condition⟩ := condition
    obtain ⟨⟨fragment, between⟩, hfirst, h⟩ := bind_eq_ok_iff.1 h
    obtain ⟨⟨others, last⟩, hrest, h⟩ := bind_eq_ok_iff.1 h
    cases h
    obtain ⟨hrendering, hslot⟩ := rendering_renderFragment hsound hfirst
    obtain ⟨hrenderings, hslots⟩ := ih hrendering.isSound hrest
    exact ⟨.cons hrendering hrenderings, by simp [hslot, hslots]⟩

end Schema

namespace Fragment

variable {fragments : List Fragment} {i : Nat}

theorem mem_places {test : Fragment → Bool} :
    i ∈ places test fragments ↔ ∃ fragment, fragments[i]? = some fragment ∧ test fragment := by
  unfold places
  constructor
  · intro h
    obtain ⟨⟨fragment, j⟩, hmem, rfl⟩ := List.mem_map.1 h
    obtain ⟨hmem, htest⟩ := List.mem_filter.1 hmem
    exact ⟨fragment, List.mk_mem_zipIdx_iff_getElem?.1 hmem, htest⟩
  · rintro ⟨fragment, hget, htest⟩
    exact List.mem_map.2 ⟨(fragment, i),
      List.mem_filter.2 ⟨List.mk_mem_zipIdx_iff_getElem?.2 hget, htest⟩, rfl⟩

theorem mem_of_choose_eq_some {preferred possible : List Nat}
    (h : choose preferred possible = some i) : i ∈ preferred ∨ i ∈ possible := by
  unfold choose at h
  cases hhead : preferred.head? with
  | some first =>
    rw [hhead] at h
    cases h
    exact .inl (List.mem_of_mem_head? hhead)
  | none =>
    rw [hhead] at h
    exact .inr (List.mem_of_getLast? h)

/-- The partition is selected by a condition on a hash key. -/
theorem slot_of_hashPlace (h : hashPlace fragments = some i) :
    ∃ fragment index, fragments[i]? = some fragment ∧ fragment.slot = .hash index := by
  rcases mem_of_choose_eq_some h with h | h <;>
    obtain ⟨fragment, hget, hslot⟩ := mem_places.1 h <;>
    cases hfragment : fragment.slot <;> simp_all

/-- The partition is narrowed by a condition on a sort key that fits it. -/
theorem slot_of_rangePlace {hash : Option Index} (h : rangePlace hash fragments = some i) :
    ∃ fragment index, fragments[i]? = some fragment ∧ fragment.slot = .range index ∧
      fits hash index := by
  rcases mem_of_choose_eq_some h with h | h <;> obtain ⟨fragment, hget, hslot⟩ := mem_places.1 h
  · cases hfragment : fragment.slot with
    | range index =>
      cases index with
      | none => exact ⟨fragment, none, hget, hfragment, by cases hash <;> simp_all [fits]⟩
      | some index => simp [hfragment] at hslot
    | filter | hash index => simp [hfragment] at hslot
  · cases hfragment : fragment.slot with
    | range index => exact ⟨fragment, index, hget, hfragment, by simpa [hfragment] using hslot⟩
    | filter | hash index => simp [hfragment] at hslot

/-- A partition that is not narrowed has no condition on a sort key that fits it. -/
theorem not_fits_of_rangePlace {hash index : Option Index} (h : rangePlace hash fragments = none)
    {fragment : Fragment} (hmem : fragment ∈ fragments) (hslot : fragment.slot = .range index) :
    ¬fits hash index := by
  intro hfits
  obtain ⟨i, hget⟩ := List.getElem?_of_mem hmem
  obtain ⟨-, hfitting⟩ := Option.or_eq_none_iff.1 h
  have hplace : i ∈ ([] : List Nat) := by
    rw [← List.getLast?_eq_none_iff.1 hfitting]
    exact mem_places.2 ⟨fragment, hget, by simpa [hslot] using hfits⟩
  cases hplace

/-- The condition at a place, if there is one. -/
def conditionAt (fragments : List Fragment) (place : Option Nat) : Option Expr :=
  (place.bind (fragments[·]?)).map (·.condition)

theorem map_filter_zipIdx (place : Option Nat) :
    (fragments.zipIdx.filter fun entry => some entry.2 == place).map (·.1.condition) =
      (conditionAt fragments place).toList := by
  cases place with
  | none => simp [conditionAt]
  | some i =>
    have hstart (xs : List Fragment) (n : Nat) :
        ((xs.zipIdx n).filter fun entry => entry.2 == n + i).map (·.1.condition) =
          (conditionAt xs (some i)).toList := by
      induction xs generalizing n i with
      | nil => simp [conditionAt]
      | cons fragment xs ih =>
        cases i with
        | zero =>
          have hnone : (xs.zipIdx (n + 1)).filter (fun entry => entry.2 == n) = [] := by
            apply List.filter_eq_nil_iff.2
            intro entry hmem
            have hle := List.le_snd_of_mem_zipIdx hmem
            simp
            omega
          simp [conditionAt, hnone]
        | succ i =>
          have hne : (n == n + (i + 1)) = false := by simp
          have hadd : n + (i + 1) = n + 1 + i := by omega
          rw [List.zipIdx_cons, List.filter_cons_of_neg (by simp), hadd, ih]
          simp [conditionAt]
    simpa using hstart fragments 0

/-- The place of the condition that narrows the partition that is selected. -/
def narrowPlace (fragments : List Fragment) : Option Nat :=
  (hashPlace fragments).bind fun _ => rangePlace (indexAt fragments (hashPlace fragments)) fragments

theorem slot_of_narrowPlace (h : narrowPlace fragments = some i) :
    ∃ fragment index, fragments[i]? = some fragment ∧ fragment.slot = .range index ∧
      fits (indexAt fragments (hashPlace fragments)) index := by
  obtain ⟨place, -, hrange⟩ := Option.bind_eq_some_iff.1 h
  exact slot_of_rangePlace hrange

/-- No condition both selects the partition and narrows it. -/
theorem hashPlace_ne_narrowPlace (h : hashPlace fragments = some i) :
    narrowPlace fragments ≠ some i := by
  intro hnarrow
  obtain ⟨fragment, index, hget, hslot⟩ := slot_of_hashPlace h
  obtain ⟨other, range, hother, hrange, -⟩ := slot_of_narrowPlace hnarrow
  obtain rfl : fragment = other := by simpa [hget] using hother
  simp [hslot] at hrange

variable (fragments : List Fragment) (placeholders : Placeholders)

theorem hashCondition_select :
    (select fragments placeholders).hashCondition =
      conditionAt fragments (hashPlace fragments) := by
  unfold select conditionAt
  cases hashPlace fragments with
  | none => rfl
  | some i => cases h : fragments[i]? <;> simp [h]

theorem rangeCondition_select :
    (select fragments placeholders).rangeCondition =
      conditionAt fragments (narrowPlace fragments) := by
  show (do return (← fragments[← narrowPlace fragments]?).condition : Option Expr) = _
  unfold conditionAt
  cases narrowPlace fragments with
  | none => rfl
  | some i => cases h : fragments[i]? <;> simp [h]

theorem filters_select :
    (select fragments placeholders).filters =
      (fragments.zipIdx.filter fun entry => some entry.2 != hashPlace fragments &&
        some entry.2 != narrowPlace fragments).map (·.1.condition) := rfl

/-- Every condition is selected or left as a filter, and none is both. -/
theorem select_perm :
    ((select fragments placeholders).keyConditions ++ (select fragments placeholders).filters).Perm
      (fragments.map (·.condition)) := by
  have hcondition : fragments.map (·.condition) = fragments.zipIdx.map (·.1.condition) := by
    conv => lhs; rw [← List.zipIdx_map_fst 0 fragments, List.map_map]
    rfl
  have hhash := List.filter_append_perm (fun entry => some entry.2 == hashPlace fragments)
    fragments.zipIdx
  have hnarrow := List.filter_append_perm (fun entry => some entry.2 == narrowPlace fragments)
    (fragments.zipIdx.filter fun entry => !(some entry.2 == hashPlace fragments))
  have honly : (fragments.zipIdx.filter fun entry => !(some entry.2 == hashPlace fragments)).filter
      (fun entry => some entry.2 == narrowPlace fragments) =
        fragments.zipIdx.filter fun entry => some entry.2 == narrowPlace fragments := by
    rw [List.filter_filter]
    apply List.filter_congr
    intro entry _
    cases hplace : hashPlace fragments with
    | none => simp
    | some i =>
      have hne := hashPlace_ne_narrowPlace hplace
      by_cases hi : entry.2 = i
      · simp [hi, hne.symm]
      · simp [hi]
  rw [honly, List.filter_filter] at hnarrow
  have hall := ((hhash.symm.trans (hnarrow.symm.append_left _)).map (·.1.condition)).symm
  simp only [List.map_append, map_filter_zipIdx] at hall
  rw [Selection.keyConditions, hashCondition_select, rangeCondition_select, filters_select,
    hcondition, List.append_assoc]
  refine .trans (.of_eq ?_) hall
  congr 4
  funext entry
  exact Bool.and_comm _ _

end Fragment

end KeyedStore
