import KeyedStore.Proofs.Key.Identifiers

/-!
# Prepared records

A record that has been prepared for writing is left as it is when it is prepared again, and has the
same identifier. The exception is a generated hash key: its text is not brought to the type of the
key, so that where the type is a number or a date it is not accepted the second time.
-/
namespace KeyedStore.Schema

variable {schema : Schema} {fresh : Option String} {data record written : Record}
  {id hash range value : Json} {key rangeKey : String}

/-- Whether the dates of a record are in milliseconds, with the possible exception of one
attribute. -/
def HasDatesBut (schema : Schema) (key : String) (record : Record) : Prop :=
  ∀ entry ∈ record, entry.1 ≠ key → schema.coerceDate entry.1 entry.2 = entry.2

theorem hasDatesBut_iff (hnodup : (record.map (·.1)).Nodup) :
    schema.HasDatesBut key record ↔ ∀ name value, record.get? name = some value → name ≠ key →
      schema.coerceDate name value = value := by
  constructor
  · intro h name value hget hne
    exact h (name, value) ((Record.get?_eq_some_iff hnodup).1 hget) hne
  · intro h entry hmem hne
    exact h entry.1 entry.2 ((Record.get?_eq_some_iff hnodup).2 hmem) hne

/-- Coercing the dates of such a record changes one attribute at most. -/
theorem coerceDates_eq_set (hnodup : (record.map (·.1)).Nodup)
    (hdates : schema.HasDatesBut key record) (hget : record.get? key = some value) :
    schema.coerceDates record = record.set key (schema.coerceDate key value) := by
  rw [coerceDates_eq_map]
  induction record with
  | nil => cases hget
  | cons entry rest ih =>
    obtain ⟨k, v⟩ := entry
    obtain ⟨hnew, hrest⟩ := List.nodup_cons.1 hnodup
    obtain ⟨hfirst, hothers⟩ := List.forall_mem_cons.1 hdates
    by_cases hk : k = key
    · subst hk
      obtain rfl : v = value := by simpa [Record.get?] using hget
      have hsame : rest.map (fun entry => (entry.1, schema.coerceDate entry.1 entry.2)) = rest := by
        refine (List.map_congr_left fun entry hmem => ?_).trans (List.map_id rest)
        have hne : entry.1 ≠ k := fun heq => hnew (List.mem_map.2 ⟨entry, hmem, heq⟩)
        rw [hothers entry hmem hne]
        rfl
      simp [Record.set, hsame]
    · have hget' : Record.get? rest key = some value := by simpa [Record.get?, hk] using hget
      simp [Record.set, hk, hfirst hk, ih hrest hothers hget']

theorem nodup_coerceDates (h : (record.map (·.1)).Nodup) :
    ((schema.coerceDates record).map (·.1)).Nodup := by
  rw [coerceDates_eq_map, List.map_map]
  exact h

/-- A hash key that is there in the form of a key is the one that is written. -/
theorem hashToWrite_of_admits (hget : record.get? schema.hashKey = some hash)
    (hnull : hash.isNull = false) (hadmits : schema.Admits schema.hashKey hash) :
    schema.hashToWrite fresh record = .ok hash := by
  have hne : hash ≠ .null := by
    rintro rfl
    cases hnull
  exact hashToWrite_eq_ok_iff.2 (.inr ⟨hash, hget, hne, coerce_of_admits hadmits⟩)

theorem rangeToWrite_of_admits (hget : record.get? rangeKey = some range)
    (hnull : range.isNull = false) (hadmits : schema.Admits rangeKey range) :
    schema.rangeToWrite rangeKey record = .ok range := by
  rw [rangeToWrite, hget]
  cases range with
  | null => cases hnull
  | bool _ | num _ | str _ | arr _ | obj _ => exact coerce_of_admits hadmits

/-- A record without a range key is left as it is if its hash is a key and its dates are
coerced. -/
theorem prepareWrite_of_hash (hrange : schema.rangeKey = none) (hnodup : (record.map (·.1)).Nodup)
    (hget : record.get? schema.hashKey = some hash) (hnull : hash.isNull = false)
    (hadmits : schema.Admits schema.hashKey hash)
    (hdates : schema.HasDatesBut schema.hashKey record) (fresh : Option String) :
    schema.prepareWrite fresh record = (.ok hash, record) := by
  have hcoerced : schema.coerceDates record = record := by
    rw [coerceDates_eq_set hnodup hdates hget, coerceDate_of_admits hadmits,
      Record.set_eq_self hget]
  simp only [prepareWrite, hashToWrite_of_admits hget hnull hadmits, Record.set_eq_self hget,
    hcoerced, hrange]

/-- A record with hash, range and the identifier made of both is left as it is if its other dates
are coerced. -/
theorem JoinsKeys.prepareWrite_of_isWritten (hjoins : schema.JoinsKeys rangeKey)
    (hwritten : schema.IsWritten rangeKey record hash range) (hnodup : (record.map (·.1)).Nodup)
    (hdates : schema.HasDatesBut idAttribute record) (fresh : Option String) :
    schema.prepareWrite fresh record = (.ok (.str (schema.encodeId hash range)), record) := by
  -- The identifier may be declared as a date. What that makes of it is overwritten.
  have hcoerced := coerceDates_eq_set hnodup hdates hwritten.get?_id
  have hget : (schema.coerceDates record).get? rangeKey = some range := by
    rw [hcoerced, Record.get?_set, if_neg hjoins.range_ne_id, hwritten.get?_range]
  simp only [prepareWrite, hashToWrite_of_admits hwritten.get?_hash hwritten.hash_ne_null
    hwritten.admits_hash, Record.set_eq_self hwritten.get?_hash, hjoins.rangeKey,
    rangeToWrite_of_admits hget hwritten.range_ne_null hwritten.admits_range,
    Record.set_eq_self hget, hjoins.compositeKey]
  rw [hcoerced, Record.set_set, Record.set_eq_self hwritten.get?_id]

/-- Whether a hash key is generated for a record although the key is a number or a date. -/
def GeneratesNoText (schema : Schema) (record : Record) : Prop :=
  schema.Generates record ∧ (schema.type? schema.hashKey = some .number ∨
    schema.type? schema.hashKey = some .date)

theorem isNull_of_hashToWrite (hhash : schema.hashToWrite fresh record = .ok hash) :
    hash.isNull = false := by
  rcases hashToWrite_eq_ok hhash with ⟨-, text, rfl⟩ | ⟨-, hnull⟩
  · rfl
  · exact hnull

/-- The hash key of a record has the form of a key unless it is generated for a key of another
form. -/
theorem admits_hash_iff (hhash : schema.hashToWrite fresh record = .ok hash) :
    schema.Admits schema.hashKey hash ↔ ¬schema.GeneratesNoText record := by
  rcases hashToWrite_eq_ok_iff.1 hhash with
    ⟨hgenerates, text, -, rfl⟩ | ⟨raw, hget, hne, hcoerce⟩
  · unfold Admits GeneratesNoText
    cases htype : schema.type? schema.hashKey with
    | none => simp
    | some type => cases type <;> simp [PropertyType.admits, hgenerates]
  · refine iff_of_true (admits_of_coerce hcoerce).1 fun hno => hne ?_
    exact hno.1.2 raw hget

theorem nodup_prepareWrite (hdata : (data.map (·.1)).Nodup)
    (h : schema.prepareWrite fresh data = (.ok id, written)) : (written.map (·.1)).Nodup := by
  obtain ⟨hash, -, hcases⟩ := prepareWrite_cases h
  have hdated : ((schema.coerceDates (data.set schema.hashKey hash)).map (·.1)).Nodup :=
    nodup_coerceDates (Record.nodup_set hdata)
  obtain ⟨-, -, rfl⟩ | ⟨rangeKey, range, -, -, ⟨-, -, rfl⟩ | ⟨compositeKey, -, -, rfl⟩⟩ := hcases
  · exact hdated
  · exact Record.nodup_set hdated
  · exact Record.nodup_set (Record.nodup_set hdated)

/-- The dates of a prepared record are coerced. -/
theorem hasDatesBut_of_rangeKey_none (hrange : schema.rangeKey = none)
    (h : schema.prepareWrite fresh data = (.ok id, written)) : schema.HasDatesBut key written := by
  obtain ⟨-, rfl⟩ := prepareWrite_eq_of_rangeKey_none hrange h
  rw [coerceDates_eq_map]
  exact List.forall_mem_map.2 fun entry _ _ => coerceDate_coerceDate schema entry.1 entry.2

theorem JoinsKeys.hasDatesBut (hjoins : schema.JoinsKeys rangeKey) (hdata : (data.map (·.1)).Nodup)
    (h : schema.prepareWrite fresh data = (.ok id, written)) :
    schema.HasDatesBut idAttribute written := by
  have hnodup := nodup_prepareWrite hdata h
  obtain ⟨hash, range, -, hrange, -, rfl⟩ := hjoins.prepareWrite_eq h
  rw [hasDatesBut_iff hnodup]
  intro name value hget hne
  rw [Record.get?_set, if_neg hne, Record.get?_set] at hget
  split at hget
  case isTrue hname =>
    obtain rfl : range = value := Option.some.inj hget
    exact hname ▸ coerceDate_of_admits (rangeToWrite_eq_ok hrange).1
  case isFalse =>
    rw [get?_coerceDates] at hget
    obtain ⟨raw, -, rfl⟩ := Option.map_eq_some_iff.1 hget
    exact coerceDate_coerceDate schema name raw

/-- A prepared record stays as it is exactly if its hash key was not generated for a number or a
date. -/
theorem prepareWrite_again_iff {definition : ModelDefinition} (hproper : definition.IsProper)
    (hresolve : definition.resolve = .ok schema) (hdata : (data.map (·.1)).Nodup)
    (h : schema.prepareWrite fresh data = (.ok id, written)) :
    (∀ again, schema.prepareWrite again written = (.ok id, written)) ↔
      ¬schema.GeneratesNoText data := by
  have hnodup := nodup_prepareWrite hdata h
  obtain ⟨hnone, -⟩ | ⟨rangeKey, hjoins⟩ := hproper.schema_cases hresolve
  · obtain ⟨hhash, hstored⟩ := prepareWrite_of_rangeKey_none hnone h
    rw [← admits_hash_iff hhash]
    constructor
    · intro hagain
      obtain ⟨hagain, -⟩ := prepareWrite_of_rangeKey_none hnone (hagain none)
      rcases hashToWrite_eq_ok_iff.1 hagain with ⟨-, _, ⟨⟩, -⟩ | ⟨raw, -, -, hcoerce⟩
      exact (admits_of_coerce hcoerce).1
    · intro hadmits
      rw [coerceDate_of_admits hadmits] at hstored
      exact prepareWrite_of_hash hnone hnodup hstored (isNull_of_hashToWrite hhash) hadmits
        (hasDatesBut_of_rangeKey_none hnone h)
  · obtain ⟨hash, range, rfl, hwritten⟩ := hjoins.prepareWrite_eq_ok h
    refine iff_of_true ?_ fun hno => ?_
    · exact hjoins.prepareWrite_of_isWritten hwritten hnodup (hjoins.hasDatesBut hdata h)
    · exact Bool.false_ne_true (hjoins.generatesHash.symm.trans hno.1.1)

end KeyedStore.Schema
