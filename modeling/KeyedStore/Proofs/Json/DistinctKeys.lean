import KeyedStore.Json.Reader

/-!
# Distinct keys

An object has each key once. What is read from text does, whatever keys the text repeats.
-/
namespace KeyedStore

/-- Whether no object in a value has a key twice. -/
inductive Json.HasDistinctKeys : Json → Prop where
  | null : HasDistinctKeys .null
  | bool (b : Bool) : HasDistinctKeys (.bool b)
  | num (n : Number) : HasDistinctKeys (.num n)
  | str (s : String) : HasDistinctKeys (.str s)
  | arr {elements : List Json} (h : ∀ element ∈ elements, element.HasDistinctKeys) :
      HasDistinctKeys (.arr elements)
  | obj {entries : List (String × Json)} (distinct : (entries.map (·.1)).Nodup)
      (h : ∀ entry ∈ entries, entry.2.HasDistinctKeys) : HasDistinctKeys (.obj entries)

/-- Whether the entries of an object may be its entries. -/
structure Record.IsProper (record : Record) : Prop where
  distinct : (record.map (·.1)).Nodup
  values : ∀ entry ∈ record, entry.2.HasDistinctKeys

namespace Record

variable {record : Record} {key : String} {value : Json}

theorem mem_map_fst_set {other : String} :
    other ∈ (record.set key value).map (·.1) ↔ other = key ∨ other ∈ record.map (·.1) := by
  induction record with
  | nil => simp [set]
  | cons entry rest ih =>
    obtain ⟨k, v⟩ := entry
    by_cases hk : k = key
    · simp [set, hk]
    · simp only [set, beq_eq_false_iff_ne.2 hk, Bool.false_eq_true, if_false, List.map_cons,
        List.mem_cons, ih]
      exact or_left_comm

/-- A value that was set is found, and the others are as before. -/
theorem get?_set {other : String} :
    Record.get? (record.set key value) other =
      if other = key then some value else record.get? other := by
  induction record with
  | nil => grind [set, Record.get?]
  | cons entry rest ih =>
    obtain ⟨k, v⟩ := entry
    by_cases hk : k = key
    · grind [set, Record.get?]
    · by_cases hother : k = other
      · subst hother
        simp [set, hk, Record.get?]
      · simpa [set, hk, hother, Record.get?] using ih

/-- Setting the value that is there changes nothing. -/
theorem set_eq_self (h : record.get? key = some value) : record.set key value = record := by
  induction record with
  | nil => cases h
  | cons entry rest ih =>
    obtain ⟨k, v⟩ := entry
    by_cases hk : k = key
    · obtain rfl : v = value := by simpa [Record.get?, hk] using h
      simp [set, hk]
    · have hrest : Record.get? rest key = some value := by simpa [Record.get?, hk] using h
      simp [set, hk, ih hrest]

/-- Of two values that are set under a key, the later one stays. -/
theorem set_set {other : Json} : (record.set key other).set key value = record.set key value := by
  induction record with
  | nil => simp [set]
  | cons entry rest ih =>
    obtain ⟨k, v⟩ := entry
    by_cases hk : k = key <;> simp [set, hk, ih]

theorem nodup_set (h : (record.map (·.1)).Nodup) : ((record.set key value).map (·.1)).Nodup := by
  induction record with
  | nil => simp [set]
  | cons entry rest ih =>
    obtain ⟨k, v⟩ := entry
    obtain ⟨hfirst, hrest⟩ := List.nodup_cons.1 h
    by_cases hk : k = key
    · subst hk
      simpa [set] using List.nodup_cons.2 ⟨hfirst, hrest⟩
    · have hnew : k ∉ (set rest key value).map (·.1) := fun hmem =>
        (mem_map_fst_set.1 hmem).elim hk hfirst
      simpa [set, hk] using List.nodup_cons.2 ⟨hnew, ih hrest⟩

theorem eq_or_mem_of_mem_set {entry : String × Json} (h : entry ∈ record.set key value) :
    entry.2 = value ∨ entry ∈ record := by
  induction record with
  | nil => simp_all [set]
  | cons first rest ih =>
    obtain ⟨k, v⟩ := first
    by_cases hk : k = key <;> grind [set]

/-- Setting a value keeps keys distinct. -/
theorem IsProper.set (h : record.IsProper) (hvalue : value.HasDistinctKeys) :
    IsProper (Record.set record key value) where
  distinct := nodup_set h.distinct
  values entry hmem := (eq_or_mem_of_mem_set hmem).elim (· ▸ hvalue) (h.values entry)

/-- A value is found under its key, as keys are distinct. -/
theorem get?_eq_some_iff (h : (record.map (·.1)).Nodup) :
    record.get? key = some value ↔ (key, value) ∈ record := by
  constructor
  · intro hget
    obtain ⟨entry, hentry, rfl⟩ := Option.map_eq_some_iff.1 hget
    obtain rfl : entry.1 = key := by simpa using List.find?_some hentry
    exact List.mem_of_find?_eq_some hentry
  · intro hmem
    induction record with
    | nil => cases hmem
    | cons entry rest ih =>
      obtain ⟨hfirst, hrest⟩ := List.nodup_cons.1 h
      rcases List.mem_cons.1 hmem with rfl | hmem
      · simp [Record.get?]
      · have hne : entry.1 ≠ key := fun heq =>
          hfirst (List.mem_map.2 ⟨(key, value), hmem, heq.symm⟩)
        simpa [Record.get?, hne] using ih hrest hmem

theorem get?_eq_none_iff : record.get? key = none ↔ key ∉ record.map (·.1) := by
  rw [Record.get?, Option.map_eq_none_iff, List.find?_eq_none]
  grind

/-- A filter keeps a value under a key, or leaves nothing there. -/
theorem get?_filter (h : (record.map (·.1)).Nodup) (keep : String × Json → Bool) (key : String) :
    Record.get? (record.filter keep) key =
      (record.get? key).filter fun value => keep (key, value) := by
  have hkept : ((record.filter keep).map (·.1)).Nodup := h.sublist (List.filter_sublist.map _)
  ext value
  rw [Option.filter_eq_some_iff, get?_eq_some_iff hkept, get?_eq_some_iff h, List.mem_filter]

theorem IsProper.get? (h : record.IsProper) (hget : record.get? key = some value) :
    value.HasDistinctKeys := by
  obtain ⟨entry, hentry, rfl⟩ := Option.map_eq_some_iff.1 hget
  exact h.values entry (List.mem_of_find?_eq_some hentry)

end Record

namespace Json

theorem HasDistinctKeys.isProper {entries : Record} (h : (Json.obj entries).HasDistinctKeys) :
    entries.IsProper := by
  cases h with
  | obj distinct h => exact ⟨distinct, h⟩

variable {text rest : List Char}

/-- What the readers of nested values read with some fuel has distinct keys. -/
structure ReadsDistinctKeys (fuel : Nat) : Prop where
  value : ∀ {text rest json}, readValue? fuel text = some (json, rest) → json.HasDistinctKeys
  elements : ∀ {text rest elements}, readElements? fuel text = some (elements, rest) →
    ∀ element ∈ elements, element.HasDistinctKeys
  entries : ∀ {text rest done entries}, readEntries? fuel done text = some (entries, rest) →
    done.IsProper → entries.IsProper

theorem ReadsDistinctKeys.readValue {fuel : Nat} (h : ReadsDistinctKeys fuel) {json : Json}
    (hread : readValue? (fuel + 1) text = some (json, rest)) : json.HasDistinctKeys := by
  rw [readValue?] at hread
  split at hread
  case h_1 | h_2 | h_3 =>
    obtain ⟨after, -, hread⟩ := Option.bind_eq_some_iff.1 hread
    cases hread
    constructor
  case h_4 =>
    obtain ⟨⟨s, after⟩, -, hread⟩ := Option.bind_eq_some_iff.1 hread
    cases hread
    constructor
  case h_5 =>
    split at hread
    case h_1 =>
      cases hread
      exact .arr nofun
    case h_2 =>
      obtain ⟨⟨elements, after⟩, helements, hread⟩ := Option.bind_eq_some_iff.1 hread
      cases hread
      exact .arr (h.elements helements)
  case h_6 =>
    split at hread
    case h_1 =>
      cases hread
      exact .obj .nil nofun
    case h_2 =>
      obtain ⟨⟨entries, after⟩, hentries, hread⟩ := Option.bind_eq_some_iff.1 hread
      cases hread
      obtain ⟨hdistinct, hvalues⟩ := h.entries hentries ⟨.nil, nofun⟩
      exact .obj hdistinct hvalues
  case h_7 =>
    obtain ⟨⟨number, after⟩, -, hread⟩ := Option.bind_eq_some_iff.1 hread
    cases hread
    constructor

theorem ReadsDistinctKeys.readElements {fuel : Nat} (h : ReadsDistinctKeys fuel)
    {elements : List Json} (hread : readElements? (fuel + 1) text = some (elements, rest)) :
    ∀ element ∈ elements, element.HasDistinctKeys := by
  rw [readElements?] at hread
  obtain ⟨⟨element, after⟩, helement, hread⟩ := Option.bind_eq_some_iff.1 hread
  simp only at hread
  split at hread
  case h_1 =>
    obtain ⟨⟨others, final⟩, hothers, hread⟩ := Option.bind_eq_some_iff.1 hread
    cases hread
    exact List.forall_mem_cons.2 ⟨h.value helement, h.elements hothers⟩
  case h_2 =>
    cases hread
    exact List.forall_mem_cons.2 ⟨h.value helement, nofun⟩
  case h_3 => cases hread

theorem ReadsDistinctKeys.readEntries {fuel : Nat} (h : ReadsDistinctKeys fuel)
    {done entries : Record} (hread : readEntries? (fuel + 1) done text = some (entries, rest))
    (hdone : done.IsProper) : entries.IsProper := by
  rw [readEntries?] at hread
  obtain ⟨⟨key, after⟩, -, hread⟩ := Option.bind_eq_some_iff.1 hread
  simp only at hread
  split at hread
  case h_1 =>
    obtain ⟨⟨value, final⟩, hvalue, hread⟩ := Option.bind_eq_some_iff.1 hread
    have hset : Record.IsProper (done.set key value) :=
      Record.IsProper.set hdone (h.value hvalue)
    simp only at hread
    split at hread
    case h_1 => exact h.entries hread hset
    case h_2 =>
      cases hread
      exact hset
    case h_3 => cases hread
  case h_2 => cases hread

/-- Each nested value is read with less fuel than the value that holds it. -/
theorem readsDistinctKeys (fuel : Nat) : ReadsDistinctKeys fuel := by
  induction fuel with
  | zero => exact ⟨nofun, nofun, nofun⟩
  | succ fuel ih => exact ⟨ih.readValue, ih.readElements, ih.readEntries⟩

/-- A value that is read from a text has distinct keys. -/
theorem hasDistinctKeys_of_read {text : String} {json : Json} (h : read? text = some json) :
    json.HasDistinctKeys := by
  obtain ⟨⟨value, rest⟩, hvalue, h⟩ := Option.bind_eq_some_iff.1 h
  simp only at h
  split at h
  case isTrue =>
    cases h
    exact (readsDistinctKeys _).value hvalue
  case isFalse => cases h

end Json

end KeyedStore
