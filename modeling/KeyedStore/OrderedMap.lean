/-!
# Ordered maps

A finite map is the list of its entries in ascending key order. Keys are compared by `compare`,
which may identify keys that differ in spelling; a key that is present keeps its spelling when its
value is replaced. `IsAscending` is the invariant of the lists that the operations build. The laws
of `get?` hold without it, for any transitive order of keys.
-/
namespace KeyedStore

/-- The entries of a finite map in ascending key order. -/
abbrev OrderedMap (κ α : Type) := List (κ × α)

namespace OrderedMap

variable {κ α β : Type}

/-- Each key is less than all keys after it. -/
def IsAscending [Ord κ] (map : OrderedMap κ α) : Prop :=
  map.Pairwise fun a b => compare a.1 b.1 = .lt

section Operations

variable [Ord κ]

/-- The value under a key. -/
def get? : OrderedMap κ α → κ → Option α
  | [], _ => none
  | (k, a) :: rest, key => if compare key k = .eq then some a else get? rest key

def contains (map : OrderedMap κ α) (key : κ) : Bool := (map.get? key).isSome

/-- Sets the value under a key. -/
def insert : OrderedMap κ α → κ → α → OrderedMap κ α
  | [], key, value => [(key, value)]
  | (k, a) :: rest, key, value =>
    match compare key k with
    | .lt => (key, value) :: (k, a) :: rest
    | .eq => (k, value) :: rest
    | .gt => (k, a) :: insert rest key value

/-- Removes a key and its value. -/
def erase (map : OrderedMap κ α) (key : κ) : OrderedMap κ α :=
  map.filter fun entry => compare key entry.1 != .eq

/-- The map of a list of entries; a later entry replaces an earlier one with the same key. -/
def ofList (entries : List (κ × α)) : OrderedMap κ α :=
  entries.foldl (fun map entry => map.insert entry.1 entry.2) []

/-- Adds the entries of a list to a map. -/
def insertAll (map : OrderedMap κ α) (entries : List (κ × α)) : OrderedMap κ α :=
  entries.foldl (fun map entry => map.insert entry.1 entry.2) map

end Operations

def keys (map : OrderedMap κ α) : List κ := map.map (·.1)

def values (map : OrderedMap κ α) : List α := map.map (·.2)

/-- Applies a function to every value. -/
def mapValues (f : α → β) (map : OrderedMap κ α) : OrderedMap κ β :=
  map.map fun entry => (entry.1, f entry.2)

section Laws

variable [Ord κ] {map : OrderedMap κ α} {key other : κ} {value : α}

/-- Setting a value adds no other key. -/
theorem eq_or_mem_keys_of_mem_insert {entry : κ × α} (h : entry ∈ map.insert key value) :
    entry.1 = key ∨ entry.1 ∈ map.keys := by
  induction map with
  | nil => simp_all [insert]
  | cons first rest ih =>
    obtain ⟨k, a⟩ := first
    cases hk : compare key k <;> simp only [insert, hk, List.mem_cons] at h <;> grind [keys]

/-- A key that was removed is not found. -/
@[simp]
theorem get?_erase_self : (map.erase key).get? key = none := by
  induction map with
  | nil => rfl
  | cons entry rest ih =>
    by_cases h : compare key entry.1 = .eq <;> simp_all [erase, get?]

theorem IsAscending.erase (h : map.IsAscending) : (map.erase key).IsAscending :=
  List.Pairwise.filter _ h

variable [Std.TransOrd κ]

/-- A value that was set is found. -/
@[simp]
theorem get?_insert_self : (map.insert key value).get? key = some value := by
  induction map with
  | nil => simp [insert, get?, Std.ReflCmp.compare_self]
  | cons entry rest ih =>
    obtain ⟨k, a⟩ := entry
    cases h : compare key k <;> simp [insert, get?, h, Std.ReflCmp.compare_self, ih]

/-- Setting a value changes nothing under other keys. -/
theorem get?_insert_of_ne (h : compare other key ≠ .eq) :
    (map.insert key value).get? other = map.get? other := by
  induction map with
  | nil => simp [insert, get?, h]
  | cons entry rest ih =>
    obtain ⟨k, a⟩ := entry
    cases hk : compare key k with
    | lt => simp [insert, get?, hk, h]
    | eq =>
      have hother : compare other k ≠ .eq := fun he =>
        h (Std.TransCmp.eq_trans he (Std.OrientedCmp.eq_symm hk))
      simp [insert, get?, hk, hother]
    | gt => simp [insert, get?, hk, ih]

/-- Removing a key changes nothing under other keys. -/
theorem get?_erase_of_ne (h : compare other key ≠ .eq) :
    (map.erase key).get? other = map.get? other := by
  induction map with
  | nil => rfl
  | cons entry rest ih =>
    by_cases hk : compare key entry.1 = .eq
    · have hother : compare other entry.1 ≠ .eq := fun he =>
        h (Std.TransCmp.eq_trans he (Std.OrientedCmp.eq_symm hk))
      simp_all [erase, get?]
    · simp_all [erase, get?]

theorem IsAscending.insert (h : map.IsAscending) : (map.insert key value).IsAscending := by
  induction map with
  | nil => simp [OrderedMap.insert, IsAscending]
  | cons entry rest ih =>
    obtain ⟨k, a⟩ := entry
    obtain ⟨hfirst, hrest⟩ := List.pairwise_cons.1 h
    cases hk : compare key k with
    | lt =>
      rw [OrderedMap.insert, hk]
      refine List.pairwise_cons.2 ⟨fun e he => ?_, h⟩
      cases he with
      | head => exact hk
      | tail _ he => exact Std.TransCmp.lt_trans hk (hfirst e he)
    | eq =>
      rw [OrderedMap.insert, hk]
      exact List.pairwise_cons.2 ⟨hfirst, hrest⟩
    | gt =>
      rw [OrderedMap.insert, hk]
      refine List.pairwise_cons.2 ⟨fun e he => ?_, ih hrest⟩
      rcases eq_or_mem_keys_of_mem_insert he with hkey | hkey
      · exact hkey ▸ Std.OrientedCmp.lt_of_gt hk
      · obtain ⟨old, hold, heq⟩ := List.mem_map.1 hkey
        exact heq ▸ hfirst old hold

theorem isAscending_insertAll {entries : List (κ × α)} (h : map.IsAscending) :
    (map.insertAll entries).IsAscending := by
  induction entries generalizing map with
  | nil => exact h
  | cons entry rest ih => exact ih h.insert

theorem isAscending_ofList {entries : List (κ × α)} : (ofList entries).IsAscending :=
  isAscending_insertAll List.Pairwise.nil

end Laws

end OrderedMap

end KeyedStore
