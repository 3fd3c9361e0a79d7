import KeyedStore.OrderedMap
import Mathlib.Data.List.Induction
import Mathlib.Data.List.Nodup

/-!
# Entries of ordered maps

What the operations do to the list of entries: first for any transitive order of keys, then for keys
that `compare` tells apart.
-/
namespace KeyedStore.OrderedMap

variable {κ α β : Type} [Ord κ] {map : OrderedMap κ α} {key : κ} {value : α}

/-- Setting a value under a new key adds one entry. -/
theorem insert_perm (value : α) (h : map.get? key = none) :
    (map.insert key value).Perm ((key, value) :: map) := by
  induction map with
  | nil => exact .refl _
  | cons entry rest ih =>
    obtain ⟨k, a⟩ := entry
    cases hk : compare key k with
    | lt => simp [insert, hk]
    | eq => simp [get?, hk] at h
    | gt =>
      have hrest : get? rest key = none := by simpa [get?, hk] using h
      simp only [insert, hk]
      exact ((ih hrest).cons _).trans (.swap _ _ _)

theorem get?_eq_none_of_lt (h : ∀ entry ∈ map, compare key entry.1 = .lt) :
    map.get? key = none := by
  induction map with
  | nil => rfl
  | cons entry rest ih =>
    have hfirst := h entry List.mem_cons_self
    simp [get?, hfirst, ih fun e he => h e (List.mem_cons_of_mem _ he)]

/-- A value under a key before all others is set in front of them. -/
theorem IsAscending.insert_eq_cons (h : IsAscending ((key, value) :: map)) :
    map.insert key value = (key, value) :: map := by
  cases map with
  | nil => rfl
  | cons second rest =>
    have hlt : compare key second.1 = .lt := (List.pairwise_cons.1 h).1 second List.mem_cons_self
    simp [OrderedMap.insert, hlt]

theorem erase_eq_self (h : map.get? key = none) : map.erase key = map := by
  induction map with
  | nil => rfl
  | cons entry rest ih =>
    obtain ⟨k, a⟩ := entry
    by_cases hk : compare key k = .eq
    · simp [get?, hk] at h
    · have hrest : get? rest key = none := by simpa [get?, hk] using h
      rw [erase, List.filter_cons_of_pos (by simp [hk])]
      exact congrArg ((k, a) :: ·) (ih hrest)

section Transitive

variable [Std.TransOrd κ]

/-- Keys that compare as equal have the same value. -/
theorem get?_congr {other : κ} (h : compare key other = .eq) : map.get? key = map.get? other := by
  induction map with
  | nil => rfl
  | cons entry rest ih => simp only [get?, ih, Std.TransCmp.congr_left h]

/-- What stands under a key after a value was set. -/
theorem get?_insert {other : κ} :
    (map.insert key value).get? other =
      if compare other key = .eq then some value else map.get? other := by
  split
  case isTrue h => rw [get?_congr h, get?_insert_self]
  case isFalse h => exact get?_insert_of_ne h

/-- What stands under a key after a key was removed. -/
theorem get?_erase {other : κ} :
    (map.erase key).get? other = if compare other key = .eq then none else map.get? other := by
  split
  case isTrue h => rw [get?_congr h, get?_erase_self]
  case isFalse h => exact get?_erase_of_ne h

/-- A key that is found stands at one place of the list, where its value is replaced or removed. -/
theorem IsAscending.exists_split (h : map.IsAscending) {old : α} (hget : map.get? key = some old) :
    ∃ before k after, map = before ++ (k, old) :: after ∧ compare key k = .eq ∧
      (∀ value, map.insert key value = before ++ (k, value) :: after) ∧
      map.erase key = before ++ after := by
  induction map with
  | nil => simp [get?] at hget
  | cons entry rest ih =>
    obtain ⟨k, a⟩ := entry
    obtain ⟨hfirst, hrest⟩ := List.pairwise_cons.1 h
    cases hk : compare key k with
    | lt =>
      have hnone : get? ((k, a) :: rest) key = none := by
        refine get?_eq_none_of_lt fun entry hmem => ?_
        rcases List.mem_cons.1 hmem with rfl | hmem
        · exact hk
        · exact Std.TransCmp.lt_trans hk (hfirst entry hmem)
      simp [hnone] at hget
    | eq =>
      obtain rfl : a = old := by simpa [get?, hk] using hget
      refine ⟨[], k, rest, rfl, hk, fun value => by simp [OrderedMap.insert, hk], ?_⟩
      have hkeep : ∀ entry ∈ rest, (compare key entry.1 != .eq) = true := by
        intro entry hmem
        have hlt := Std.TransCmp.lt_of_eq_of_lt hk (hfirst entry hmem)
        simp [hlt]
      simp [OrderedMap.erase, hk, List.filter_eq_self.2 hkeep]
    | gt =>
      obtain ⟨before, k', after, rfl, hk', hinsert, herase⟩ :=
        ih hrest (by simpa [get?, hk] using hget)
      refine ⟨(k, a) :: before, k', after, rfl, hk', fun value => ?_, ?_⟩
      · simp [OrderedMap.insert, hk, hinsert value]
      · rw [OrderedMap.erase, List.filter_cons_of_pos (by simp [hk])]
        exact congrArg ((k, a) :: ·) herase

/-- Setting the value that is there changes nothing. -/
theorem IsAscending.insert_eq_self (h : map.IsAscending) (hget : map.get? key = some value) :
    map.insert key value = map := by
  obtain ⟨before, k, after, hmap, -, hinsert, -⟩ := h.exists_split hget
  exact (hinsert value).trans hmap.symm

/-- A value that is found stands under a key that compares as equal, and the other way round. -/
theorem IsAscending.get?_eq_some_iff_exists (h : map.IsAscending) :
    map.get? key = some value ↔ ∃ k, (k, value) ∈ map ∧ compare key k = .eq := by
  constructor
  · intro hget
    obtain ⟨before, k, after, rfl, hk, -, -⟩ := h.exists_split hget
    exact ⟨k, by simp, hk⟩
  · rintro ⟨k, hmem, hk⟩
    induction map with
    | nil => cases hmem
    | cons entry rest ih =>
      obtain ⟨hfirst, hrest⟩ := List.pairwise_cons.1 h
      rcases List.mem_cons.1 hmem with rfl | hmem
      · simp [get?, hk]
      · have hlt : compare entry.1 key = .lt :=
          Std.TransCmp.lt_of_lt_of_eq (hfirst _ hmem) (Std.OrientedCmp.eq_symm hk)
        rw [get?, if_neg (by simp [Std.OrientedCmp.gt_of_lt hlt])]
        exact ih hrest hmem

/-- The values after one was set: that value, and those under the other keys. -/
theorem IsAscending.values_insert_perm (h : map.IsAscending) :
    (map.insert key value).values.Perm (value :: (map.erase key).values) := by
  cases hget : map.get? key with
  | none =>
    rw [erase_eq_self hget]
    exact (insert_perm value hget).map Prod.snd
  | some old =>
    obtain ⟨before, k, after, -, -, hinsert, herase⟩ := h.exists_split hget
    rw [hinsert, herase]
    simp [values, List.perm_middle]

/-- What a map holds after a value was set. -/
theorem IsAscending.mem_insert (h : map.IsAscending) {entry : κ × α}
    (hmem : entry ∈ map.insert key value) :
    (compare key entry.1 = .eq ∧ entry.2 = value) ∨ entry ∈ map := by
  cases hget : map.get? key with
  | none =>
    rcases List.mem_cons.1 ((insert_perm value hget).mem_iff.1 hmem) with rfl | hmem
    · exact .inl ⟨Std.ReflCmp.compare_self, rfl⟩
    · exact .inr hmem
  | some old =>
    obtain ⟨before, k, after, rfl, hk, hinsert, -⟩ := h.exists_split hget
    rw [hinsert] at hmem
    simp only [List.mem_append, List.mem_cons] at hmem ⊢
    rcases hmem with hmem | rfl | hmem
    · exact .inr (.inl hmem)
    · exact .inl ⟨hk, rfl⟩
    · exact .inr (.inr (.inr hmem))

end Transitive

section Lawful

variable [Std.LawfulEqOrd κ]

theorem mem_of_get?_eq_some (h : map.get? key = some value) : (key, value) ∈ map := by
  induction map with
  | nil => simp [get?] at h
  | cons entry rest ih =>
    obtain ⟨k, a⟩ := entry
    by_cases hk : compare key k = .eq
    · obtain rfl := Std.LawfulEqCmp.eq_of_compare hk
      simp_all [get?]
    · simp_all [get?]

theorem get?_eq_none_iff : map.get? key = none ↔ key ∉ map.keys := by
  induction map with
  | nil => simp [get?, keys]
  | cons entry rest ih =>
    have hkey : compare key entry.1 = .eq ↔ key = entry.1 := Std.LawfulEqCmp.compare_eq_iff_eq
    by_cases hk : key = entry.1 <;> simp_all [get?, keys]

theorem contains_iff : map.contains key ↔ key ∈ map.keys := by
  have hnone : map.get? key = none ↔ key ∉ map.keys := get?_eq_none_iff
  cases h : map.get? key <;> simp_all [contains]

/-- The last of the entries with a key counts. -/
theorem get?_ofList [Std.TransOrd κ] {entries : List (κ × α)} [BEq κ] [LawfulBEq κ] :
    (ofList entries).get? key = (entries.reverse.find? (·.1 == key)).map (·.2) := by
  induction entries using List.reverseRecOn with
  | nil => rfl
  | append_singleton entries entry ih =>
    have hfold : ofList (entries ++ [entry]) = (ofList entries).insert entry.1 entry.2 := by
      simp [ofList]
    have hkey : compare key entry.1 = .eq ↔ entry.1 = key :=
      Std.LawfulEqCmp.compare_eq_iff_eq.trans eq_comm
    rw [hfold, get?_insert, ih]
    by_cases heq : entry.1 = key <;> simp [hkey, heq]

theorem get?_mapValues (f : α → β) : (map.mapValues f).get? key = (map.get? key).map f := by
  induction map with
  | nil => rfl
  | cons entry rest ih =>
    by_cases hk : compare key entry.1 = .eq <;> simp_all [mapValues, get?]

/-- A map in order has each key once. -/
theorem IsAscending.nodup_keys (h : map.IsAscending) : (map.map (·.1)).Nodup := by
  refine List.pairwise_map.2 (h.imp fun {entry other} hlt heq => ?_)
  have hkey : entry.1 = other.1 := heq
  simp [hkey, Std.ReflCmp.compare_self] at hlt

variable [Std.TransOrd κ]

/-- The entries of a map in order are the values under its keys. -/
theorem IsAscending.get?_eq_some_iff (h : map.IsAscending) :
    map.get? key = some value ↔ (key, value) ∈ map := by
  refine ⟨mem_of_get?_eq_some, fun hmem => ?_⟩
  induction map with
  | nil => cases hmem
  | cons entry rest ih =>
    obtain ⟨hfirst, hrest⟩ := List.pairwise_cons.1 h
    rcases List.mem_cons.1 hmem with rfl | hmem
    · simp [get?, Std.ReflCmp.compare_self]
    · have hlt : compare entry.1 key = .lt := hfirst _ hmem
      rw [get?, if_neg (by simp [Std.OrientedCmp.gt_of_lt hlt])]
      exact ih hrest hmem

/-- Maps in order are known by what stands under each key. -/
theorem IsAscending.eq_of_get? {other : OrderedMap κ α} (h : map.IsAscending)
    (hother : other.IsAscending) (hget : ∀ key, map.get? key = other.get? key) : map = other := by
  have hmem (entry : κ × α) : entry ∈ map ↔ entry ∈ other := by
    rw [← h.get?_eq_some_iff, hget, hother.get?_eq_some_iff]
  have hperm := (List.perm_ext_iff_of_nodup (h.nodup_keys.of_map _)
    (hother.nodup_keys.of_map _)).2 hmem
  refine hperm.eq_of_pairwise (fun a b _ _ hab hba => ?_) h hother
  simp [Std.OrientedCmp.gt_of_lt hab] at hba

/-- The entries of a list with distinct keys are those of its map. -/
theorem get?_ofList_eq_some_iff [DecidableEq κ] {entries : List (κ × α)}
    (h : (entries.map (·.1)).Nodup) :
    (ofList entries).get? key = some value ↔ (key, value) ∈ entries := by
  rw [get?_ofList, Option.map_eq_some_iff]
  constructor
  · rintro ⟨entry, hfind, rfl⟩
    obtain rfl : entry.1 = key := by simpa using List.find?_some hfind
    exact List.mem_reverse.1 (List.mem_of_find?_eq_some hfind)
  · intro hmem
    have hsome : (entries.reverse.find? (·.1 == key)).isSome :=
      List.find?_isSome.2 ⟨(key, value), List.mem_reverse.2 hmem, by simp⟩
    obtain ⟨entry, hfind⟩ := Option.isSome_iff_exists.1 hsome
    have hkey : entry.1 = key := by simpa using List.find?_some hfind
    have hentry := List.mem_reverse.1 (List.mem_of_find?_eq_some hfind)
    exact ⟨entry, hfind, congrArg Prod.snd (List.inj_on_of_nodup_map h hentry hmem hkey)⟩

/-- Entries that are added stand before those of the map. -/
theorem IsAscending.get?_insertAll {entries : OrderedMap κ α} (h : entries.IsAscending) :
    (map.insertAll entries).get? key = (entries.get? key).or (map.get? key) := by
  induction entries generalizing map with
  | nil => rfl
  | cons entry rest ih =>
    obtain ⟨k, a⟩ := entry
    obtain ⟨hfirst, hrest⟩ := List.pairwise_cons.1 h
    rw [show map.insertAll ((k, a) :: rest) = (map.insert k a).insertAll rest from rfl, ih hrest]
    by_cases hk : compare key k = .eq
    · obtain rfl := Std.LawfulEqCmp.eq_of_compare hk
      simp [get?, get?_eq_none_of_lt hfirst]
    · simp [get?, hk, get?_insert_of_ne hk]

/-- Entries that are taken from a source bring the values of that source. -/
theorem get?_insertAll_of_forall {source entries : OrderedMap κ α}
    (h : ∀ entry ∈ entries, source.get? entry.1 = some entry.2) :
    (map.insertAll entries).get? key =
      if entries.contains key then source.get? key else map.get? key := by
  induction entries generalizing map with
  | nil => rfl
  | cons entry rest ih =>
    obtain ⟨k, a⟩ := entry
    have hfirst : source.get? k = some a := h (k, a) List.mem_cons_self
    rw [show map.insertAll ((k, a) :: rest) = (map.insert k a).insertAll rest from rfl,
      ih fun entry hmem => h entry (List.mem_cons_of_mem _ hmem)]
    have hkey : compare key k = .eq ↔ key = k := Std.LawfulEqCmp.compare_eq_iff_eq
    by_cases hk : key = k
    · subst hk
      simp [contains, get?, hfirst]
    · simp [contains, get?, hkey, hk, get?_insert_of_ne (mt hkey.1 hk)]

end Lawful

end KeyedStore.OrderedMap
