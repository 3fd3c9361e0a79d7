import KeyedStore.Proofs.Attribute.RoundTrip
import KeyedStore.Proofs.Json.DistinctKeys
import Mathlib.Data.List.Perm.Basic

/-!
# Restored data

JSON that is stored and restored is the same JSON with the keys of its objects in order: numbers
keep their kind and their value, and a record comes back with its entries sorted. What was restored
is stored again as it was.
-/
namespace KeyedStore

namespace Item

variable {item : Item}

theorem toRecord_eq_map (item : Item) :
    toRecord item = item.map fun entry => (entry.1, entry.2.toJson) := by
  induction item with
  | nil => rfl
  | cons entry rest ih => rw [toRecord, ih, List.map_cons]

/-- The record of an item has its keys in order. -/
theorem pairwise_toRecord (h : item.IsAscending) :
    (toRecord item).Pairwise fun entry other => compare entry.1 other.1 = .lt := by
  rw [toRecord_eq_map]
  exact List.pairwise_map.2 h

theorem nodup_toRecord (h : item.IsAscending) : ((toRecord item).map (·.1)).Nodup := by
  rw [toRecord_eq_map, List.map_map]
  exact h.nodup_keys

end Item

namespace Record

variable {record : Record}

theorem isAscending_toItem (record : Record) : OrderedMap.IsAscending (toItem record) := by
  induction record with
  | nil => exact .nil
  | cons entry rest ih => exact OrderedMap.IsAscending.insert ih

/-- The attributes of the item of a record hold values of the record. -/
theorem exists_of_mem_toItem {entry : String × AttributeValue} (h : entry ∈ toItem record) :
    ∃ json, (entry.1, json) ∈ record ∧ entry.2 = json.toAttribute := by
  have hget := (isAscending_toItem record).get?_eq_some_iff.2 h
  rw [get?_toItem] at hget
  obtain ⟨json, hjson, hvalue⟩ := Option.map_eq_some_iff.1 hget
  obtain ⟨⟨name, value⟩, hfind, rfl⟩ := Option.map_eq_some_iff.1 hjson
  obtain rfl : name = entry.1 := by simpa using List.find?_some hfind
  exact ⟨value, List.mem_of_find?_eq_some hfind, hvalue.symm⟩

/-- The item of a record with distinct keys has the entries of the record. -/
theorem toItem_perm (h : (record.map (·.1)).Nodup) :
    (toItem record).Perm (record.map fun entry => (entry.1, entry.2.toAttribute)) := by
  induction record with
  | nil => exact .refl _
  | cons entry rest ih =>
    obtain ⟨name, json⟩ := entry
    obtain ⟨hnew, hrest⟩ := List.nodup_cons.1 h
    have hnone : OrderedMap.get? (toItem rest) name = none := by
      rw [get?_toItem, Record.get?_eq_none_iff.2 hnew, Option.map_none]
    exact (OrderedMap.insert_perm _ hnone).trans ((ih hrest).cons _)

end Record

mutual

/-- What is restored has each key once. -/
theorem Json.hasDistinctKeys_toJson_toAttribute :
    ∀ json : Json, json.toAttribute.toJson.HasDistinctKeys
  | .null => .null
  | .bool b => .bool b
  | .num n => by
    rw [Json.toAttribute, AttributeValue.toJson, numberToJson_text]
    exact .num n
  | .str s => .str s
  | .arr elements => .arr (hasDistinctKeys_elements elements)
  | .obj entries => by
    refine .obj (Item.nodup_toRecord (Record.isAscending_toItem entries)) ?_
    rw [Item.toRecord_eq_map]
    refine List.forall_mem_map.2 fun entry hmem => ?_
    obtain ⟨json, hjson, hvalue⟩ := Record.exists_of_mem_toItem hmem
    exact hvalue ▸ hasDistinctKeys_entries entries (entry.1, json) hjson

theorem hasDistinctKeys_elements : ∀ elements : List Json,
    ∀ element ∈ elementsToJson (elementsToAttributes elements), element.HasDistinctKeys
  | [] => nofun
  | element :: rest => List.forall_mem_cons.2
    ⟨Json.hasDistinctKeys_toJson_toAttribute element, hasDistinctKeys_elements rest⟩

theorem hasDistinctKeys_entries : ∀ entries : List (String × Json), ∀ entry ∈ entries,
    entry.2.toAttribute.toJson.HasDistinctKeys
  | [], _, h => by cases h
  | (_, json) :: rest, entry, h => by
    rcases List.mem_cons.1 h with rfl | hmem
    · exact Json.hasDistinctKeys_toJson_toAttribute json
    · exact hasDistinctKeys_entries rest entry hmem

end

section Again

/-- An item of values that are stored again as they were is stored again as it was. -/
theorem Item.toItem_toRecord {item : Item} (h : item.IsAscending)
    (hvalues : ∀ entry ∈ item, entry.2.toJson.toAttribute = entry.2) :
    Record.toItem (Item.toRecord item) = item := by
  induction item with
  | nil => rfl
  | cons entry rest ih =>
    obtain ⟨name, value⟩ := entry
    obtain ⟨hvalue, hrest⟩ := List.forall_mem_cons.1 hvalues
    rw [Item.toRecord, Record.toItem, ih (List.pairwise_cons.1 h).2 hrest, hvalue,
      h.insert_eq_cons]

mutual

/-- What was restored is stored again as it was. -/
theorem Json.toAttribute_toJson_toAttribute :
    ∀ json : Json, json.toAttribute.toJson.toAttribute = json.toAttribute
  | .null | .bool _ | .str _ => rfl
  | .num n => by
    rw [Json.toAttribute, AttributeValue.toJson, numberToJson_text, Json.toAttribute]
  | .arr elements => by
    rw [Json.toAttribute, AttributeValue.toJson, Json.toAttribute, elements_stored_again]
  | .obj entries => by
    rw [Json.toAttribute, AttributeValue.toJson, Json.toAttribute]
    refine congrArg AttributeValue.map
      (Item.toItem_toRecord (Record.isAscending_toItem entries) fun entry hmem => ?_)
    obtain ⟨json, hjson, hvalue⟩ := Record.exists_of_mem_toItem hmem
    exact hvalue ▸ entries_stored_again entries (entry.1, json) hjson

theorem elements_stored_again : ∀ elements : List Json,
    elementsToAttributes (elementsToJson (elementsToAttributes elements)) =
      elementsToAttributes elements
  | [] => rfl
  | element :: rest => by
    simp only [elementsToAttributes, elementsToJson]
    rw [Json.toAttribute_toJson_toAttribute element, elements_stored_again rest]

theorem entries_stored_again : ∀ entries : List (String × Json), ∀ entry ∈ entries,
    entry.2.toAttribute.toJson.toAttribute = entry.2.toAttribute
  | [], _, h => by cases h
  | (_, json) :: rest, entry, h => by
    rcases List.mem_cons.1 h with rfl | hmem
    · exact Json.toAttribute_toJson_toAttribute json
    · exact entries_stored_again rest entry hmem

end

theorem Record.toItem_toRecord_toItem (record : Record) :
    Record.toItem (Item.toRecord (Record.toItem record)) = Record.toItem record := by
  refine Item.toItem_toRecord (Record.isAscending_toItem record) fun entry hmem => ?_
  obtain ⟨json, -, hvalue⟩ := Record.exists_of_mem_toItem hmem
  rw [hvalue, Json.toAttribute_toJson_toAttribute]

end Again

/-- Whether a record is another one with its entries in the order of their keys. -/
structure Record.IsSortedFrom (sorted record : Record) : Prop where
  ordered : sorted.Pairwise fun entry other => compare entry.1 other.1 = .lt
  /-- The entries are the same data, in some order. -/
  entries : ∃ arranged : Record, arranged.Perm record ∧
    List.Forall₂ (fun entry other => entry.1 = other.1 ∧ entry.2.Same other.2) sorted arranged

theorem Record.isSortedFrom_toRecord_toItem {record : Record} (h : (record.map (·.1)).Nodup) :
    IsSortedFrom (Item.toRecord (Record.toItem record)) record := by
  refine ⟨Item.pairwise_toRecord (Record.isAscending_toItem record), ?_⟩
  have hperm : (Item.toRecord (Record.toItem record)).Perm
      (record.map fun entry => (entry.1, entry.2.toAttribute.toJson)) := by
    rw [Item.toRecord_eq_map]
    simpa [Function.comp_def] using
      (Record.toItem_perm h).map fun entry => (entry.1, entry.2.toJson)
  have hsame : List.Forall₂ (fun entry other => entry.1 = other.1 ∧ entry.2.Same other.2)
      (record.map fun entry => (entry.1, entry.2.toAttribute.toJson)) record := by
    refine List.forall₂_map_left_iff.2 (List.forall₂_same.2 fun entry _ => ⟨rfl, ?_⟩)
    exact Json.same_toJson_toAttribute entry.2
  obtain ⟨arranged, hentries, harranged⟩ := List.perm_comp_forall₂ hperm hsame
  exact ⟨arranged, harranged, hentries⟩

/-- JSON that is stored is restored: a number is the same number, any value is the same data with
each key once, and a record has its entries in the order of their keys. -/
theorem Json.restored_sorted :
    (∀ n : Number, (Json.num n).toAttribute = .number (String.ofList n.text) ∧
      (Json.num n).toAttribute.toJson = .num n) ∧
    (∀ json : Json, json.toAttribute.toJson.HasDistinctKeys ∧
      json.toAttribute.toJson.Same json) ∧
    ∀ record : Record, record.IsProper →
      Record.IsProper (Item.toRecord (Record.toItem record)) ∧
        Record.IsSortedFrom (Item.toRecord (Record.toItem record)) record :=
  ⟨fun n => ⟨rfl, numberToJson_text n⟩,
    fun json => ⟨json.hasDistinctKeys_toJson_toAttribute, json.same_toJson_toAttribute⟩,
    fun record h => ⟨(Json.obj record).hasDistinctKeys_toJson_toAttribute.isProper,
      Record.isSortedFrom_toRecord_toItem h.distinct⟩⟩

def Number.minusZero : Number := .real (.zero true) rfl

/-- A floating point value that is an integer. -/
def Number.six : Number := .real ⟨false, 0x4018000000000000, by decide⟩ rfl

def Number.greatestInteger : Number := .int 18446744073709551615 (by decide)

/-- A record with numbers at the limits of their kinds. -/
def measured : Record :=
  [("readings", .arr [.num .minusZero, .num .six, .num .greatestInteger]),
    ("device", .obj [("room", .null), ("id", .str "7")])]

/-- A record with numbers at the limits of their kinds is restored, its keys in order; the numbers
are stored as texts of their kinds. -/
theorem Json.restored_measured : Record.IsProper measured ∧
    [Number.minusZero, .six, .greatestInteger].map (fun n => String.ofList n.text) =
      ["-0.0", "6.0", "18446744073709551615"] ∧
    (Item.toRecord (Record.toItem measured)).map (·.1) = ["device", "readings"] ∧
    Record.IsSortedFrom (Item.toRecord (Record.toItem measured)) measured ∧
    (Json.obj measured).toAttribute.toJson.Same (.obj measured) := by
  have hproper : Record.IsProper measured := by
    refine ⟨by decide, ?_⟩
    simp only [measured, List.forall_mem_cons]
    refine ⟨.arr ?_, .obj (by decide) ?_, nofun⟩
    · simp only [List.forall_mem_cons]
      exact ⟨.num _, .num _, .num _, nofun⟩
    · simp only [List.forall_mem_cons]
      exact ⟨.null, .str _, nofun⟩
  exact ⟨hproper, by decide +kernel, rfl, (Json.restored_sorted.2.2 measured hproper).2,
    (Json.restored_sorted.2.1 (.obj measured)).2⟩

end KeyedStore
