import KeyedStore.Attribute.Json
import KeyedStore.Key.Identifier
import KeyedStore.Proofs.Json.DistinctKeys
import KeyedStore.Proofs.Key.Coercion
import KeyedStore.Proofs.Model.KeyClaims

/-!
# Identifiers of records

The identifier under which a record is written names the key that it is written with. A composite
identifier is split where the separator first occurs, so the hash must not make it occur earlier.
-/
namespace KeyedStore

/-- Whether a text occurs in another one for the first time at a position. -/
def FirstOccursAt (part text : List Char) (position : Nat) : Prop :=
  ∀ before after, before ++ part ++ after = text → position ≤ before.length

theorem firstOccursAt_iff {part text : List Char} {position : Nat} :
    FirstOccursAt part text position ↔ ∀ k < position, ¬part <+: text.drop k := by
  constructor
  · rintro h k hk ⟨after, hafter⟩
    have hle := h (text.take k) after (by
      rw [List.append_assoc, hafter, List.take_append_drop])
    exact absurd hle (Nat.not_le.2 (Nat.lt_of_le_of_lt (List.length_take_le k text) hk))
  · rintro h before after rfl
    refine Nat.le_of_not_lt fun hlt => h before.length hlt ⟨after, ?_⟩
    rw [List.append_assoc, List.drop_left]

instance (part text : List Char) (position : Nat) : Decidable (FirstOccursAt part text position) :=
  decidable_of_iff _ firstOccursAt_iff.symm

/-- A text is split where the separator first occurs. -/
theorem splitAtFirst_eq {separator hash range : List Char}
    (h : FirstOccursAt separator (hash ++ separator ++ range) hash.length) :
    splitAtFirst separator (hash ++ separator ++ range) = some (hash, range) := by
  induction hash with
  | nil =>
    rw [List.nil_append]
    cases hjoined : separator ++ range with
    | nil =>
      obtain ⟨rfl, rfl⟩ := List.append_eq_nil_iff.1 hjoined
      rfl
    | cons c rest =>
      rw [splitAtFirst, ← hjoined, if_pos (List.isPrefixOf_iff_prefix.2 (List.prefix_append _ _)),
        List.drop_left]
  | cons c hash ih =>
    -- The separator is not at the start, for it would occur before the end of the hash there.
    have hnone : separator.isPrefixOf (c :: (hash ++ separator ++ range)) = false := by
      rw [Bool.eq_false_iff]
      intro hstart
      obtain ⟨after, hafter⟩ := List.isPrefixOf_iff_prefix.1 hstart
      have hle := h [] after (by simpa using hafter)
      simp at hle
    have hrest : FirstOccursAt separator (hash ++ separator ++ range) hash.length := by
      intro before after hsplit
      have hle := h (c :: before) after (by simp [← hsplit])
      simpa using hle
    simp only [List.cons_append, splitAtFirst, hnone, Bool.false_eq_true, if_false, ih hrest,
      Option.map_some]

namespace Schema

variable {schema : Schema} {fresh : Option String} {record written : Record}
  {id hash : Json} {rangeKey : String}

theorem isNull_eq_false {json : Json} (h : json ≠ .null) : json.isNull = false := by
  cases json <;> first | rfl | exact absurd rfl h

/-- Whether the hash key of a record is generated: it is missing or null. -/
def Generates (schema : Schema) (record : Record) : Prop :=
  schema.generatesHash ∧ ∀ value, record.get? schema.hashKey = some value → value = .null

/-- A hash key is the fresh identifier where it is generated, or else the one of the record,
coerced. -/
theorem hashToWrite_eq_ok_iff : schema.hashToWrite fresh record = .ok hash ↔
    (schema.Generates record ∧ ∃ text, fresh = some text ∧ .str text = hash) ∨
      ∃ raw, record.get? schema.hashKey = some raw ∧ raw ≠ .null ∧
        schema.coerce schema.hashKey raw = .ok hash := by
  unfold hashToWrite Generates
  cases hget : record.get? schema.hashKey with
  | none => cases fresh <;> cases schema.generatesHash <;> simp [Option.filter]
  | some raw =>
    cases raw with
    | null => cases fresh <;> cases schema.generatesHash <;> simp [Option.filter]
    | bool _ | num _ | str _ | arr _ | obj _ => simp

/-- A hash key is generated, or it has the form of a key and is not null. -/
theorem hashToWrite_eq_ok (h : schema.hashToWrite fresh record = .ok hash) :
    (schema.generatesHash ∧ ∃ text, hash = .str text) ∨
      schema.Admits schema.hashKey hash ∧ hash.isNull = false := by
  rcases hashToWrite_eq_ok_iff.1 h with ⟨hgenerates, text, -, rfl⟩ | ⟨raw, -, hne, hcoerce⟩
  · exact .inl ⟨hgenerates.1, text, rfl⟩
  · obtain ⟨hadmits, hnull⟩ := admits_of_coerce hcoerce
    exact .inr ⟨hadmits, hnull.trans (isNull_eq_false hne)⟩

/-- A range key has the form of a key and is not null. -/
theorem rangeToWrite_eq_ok {range : Json} (h : schema.rangeToWrite rangeKey record = .ok range) :
    schema.Admits rangeKey range ∧ range.isNull = false := by
  unfold rangeToWrite at h
  split at h
  case h_1 | h_2 => cases h
  case h_3 raw hne _ =>
    obtain ⟨hadmits, hnull⟩ := admits_of_coerce h
    exact ⟨hadmits, hnull.trans (isNull_eq_false hne)⟩

/-- What preparing does to a record: its hash key is set and its dates are coerced. A range key is
set after that, and a composite identifier last. -/
theorem prepareWrite_cases (h : schema.prepareWrite fresh record = (.ok id, written)) :
    ∃ hash, schema.hashToWrite fresh record = .ok hash ∧
      let dated := schema.coerceDates (record.set schema.hashKey hash)
      (schema.rangeKey = none ∧ id = hash ∧ written = dated) ∨
      ∃ rangeKey range, schema.rangeKey = some rangeKey ∧
        schema.rangeToWrite rangeKey dated = .ok range ∧
        ((schema.compositeKey = none ∧ id = hash ∧ written = dated.set rangeKey range) ∨
          ∃ compositeKey, schema.compositeKey = some compositeKey ∧
            id = .str (schema.encodeId hash range) ∧
            written = (dated.set rangeKey range).set compositeKey id) := by
  unfold prepareWrite at h
  split at h
  case h_1 => cases h
  case h_2 hash hhash =>
    refine ⟨hash, hhash, ?_⟩
    cases hrangeKey : schema.rangeKey with
    | none =>
      simp only [hrangeKey] at h
      cases h
      exact .inl ⟨rfl, rfl, rfl⟩
    | some rangeKey =>
      simp only [hrangeKey] at h
      split at h
      case h_1 => cases h
      case h_2 range hrange =>
        refine .inr ⟨rangeKey, range, rfl, hrange, ?_⟩
        cases hcomposite : schema.compositeKey with
        | none =>
          simp only [hcomposite] at h
          cases h
          exact .inl ⟨rfl, rfl, rfl⟩
        | some compositeKey =>
          simp only [hcomposite] at h
          cases h
          exact .inr ⟨compositeKey, rfl, rfl, rfl⟩

theorem prepareWrite_eq_of_rangeKey_none (hrange : schema.rangeKey = none)
    (h : schema.prepareWrite fresh record = (.ok id, written)) :
    schema.hashToWrite fresh record = .ok id ∧
      written = schema.coerceDates (record.set schema.hashKey id) := by
  obtain ⟨hash, hhash, ⟨-, rfl, rfl⟩ | ⟨rangeKey, -, hrangeKey, -⟩⟩ := prepareWrite_cases h
  · exact ⟨hhash, rfl⟩
  · cases hrange.symm.trans hrangeKey

/-- A record without a range key is written under its hash key. -/
theorem prepareWrite_of_rangeKey_none (hrange : schema.rangeKey = none)
    (h : schema.prepareWrite fresh record = (.ok id, written)) :
    schema.hashToWrite fresh record = .ok id ∧
      written.get? schema.hashKey = some (schema.coerceDate schema.hashKey id) := by
  obtain ⟨hhash, rfl⟩ := prepareWrite_eq_of_rangeKey_none hrange h
  exact ⟨hhash, by simp [get?_coerceDates, Record.get?_set]⟩

/-- Whether a record is written with a hash and a range and with the identifier made of both. -/
structure IsWritten (schema : Schema) (rangeKey : String) (written : Record) (hash range : Json) :
    Prop where
  get?_hash : written.get? schema.hashKey = some hash
  get?_range : written.get? rangeKey = some range
  get?_id : written.get? idAttribute = some (.str (schema.encodeId hash range))
  admits_hash : schema.Admits schema.hashKey hash
  admits_range : schema.Admits rangeKey range
  hash_ne_null : hash.isNull = false
  range_ne_null : range.isNull = false

/-- Where hash and range are joined, both are set, the dates are coerced and the identifier is set
last. -/
theorem JoinsKeys.prepareWrite_eq (hjoins : schema.JoinsKeys rangeKey)
    (h : schema.prepareWrite fresh record = (.ok id, written)) : ∃ hash range,
      schema.hashToWrite fresh record = .ok hash ∧
      schema.rangeToWrite rangeKey (schema.coerceDates (record.set schema.hashKey hash)) =
        .ok range ∧
      id = .str (schema.encodeId hash range) ∧
      written = ((schema.coerceDates (record.set schema.hashKey hash)).set rangeKey range).set
        idAttribute id := by
  obtain ⟨hash, hhash, ⟨hnone, -⟩ | ⟨named, range, hnamed, hrange, hid⟩⟩ := prepareWrite_cases h
  · cases hjoins.rangeKey.symm.trans hnone
  · obtain rfl : rangeKey = named := Option.some.inj (hjoins.rangeKey.symm.trans hnamed)
    obtain ⟨hnone, -⟩ | ⟨compositeKey, hcomposite, rfl, rfl⟩ := hid
    · cases hjoins.compositeKey.symm.trans hnone
    · obtain rfl : idAttribute = compositeKey :=
        Option.some.inj (hjoins.compositeKey.symm.trans hcomposite)
      exact ⟨hash, range, hhash, hrange, rfl, rfl⟩

/-- A record that joins hash and range is written with them under the identifier that is
answered. -/
theorem JoinsKeys.prepareWrite_eq_ok (hjoins : schema.JoinsKeys rangeKey)
    (h : schema.prepareWrite fresh record = (.ok id, written)) : ∃ hash range,
      id = .str (schema.encodeId hash range) ∧ schema.IsWritten rangeKey written hash range := by
  obtain ⟨hash, range, hhash, hrange, rfl, rfl⟩ := hjoins.prepareWrite_eq h
  obtain ⟨hgenerated, -⟩ | ⟨hadmits, hnull⟩ := hashToWrite_eq_ok hhash
  · simp [hjoins.generatesHash] at hgenerated
  obtain ⟨hadmitsRange, hnullRange⟩ := rangeToWrite_eq_ok hrange
  refine ⟨hash, range, rfl, ?_, ?_, ?_, hadmits, hadmitsRange, hnull, hnullRange⟩
  · simp [Record.get?_set, hjoins.hash_ne_id, hjoins.hash_ne_range, get?_coerceDates,
      coerceDate_of_admits hadmits]
  · simp [Record.get?_set, hjoins.range_ne_id]
  · simp [Record.get?_set]

/-- The composite identifier that is made of the hash and the range of a record. -/
def identifier? (schema : Schema) (record : Record) : Option String := do
  let hash ← record.get? schema.hashKey
  let range ← record.get? (← schema.rangeKey)
  return schema.encodeId hash range

theorem JoinsKeys.identifier?_eq_some (hjoins : schema.JoinsKeys rangeKey) {hash range : Json}
    (hhash : record.get? schema.hashKey = some hash) (hrange : record.get? rangeKey = some range) :
    schema.identifier? record = some (schema.encodeId hash range) := by
  simp [identifier?, hjoins.rangeKey, hhash, hrange]

theorem JoinsKeys.identifier?_key (hjoins : schema.JoinsKeys rangeKey) (hash range : Json) :
    schema.identifier? [(schema.hashKey, hash), (rangeKey, range)] =
      some (schema.encodeId hash range) :=
  hjoins.identifier?_eq_some (by simp [Record.get?]) (by simp [Record.get?, hjoins.hash_ne_range])

/-- The identifier of a record is split into the texts of its hash and range. -/
theorem JoinsKeys.keyForId_encodeId (hjoins : schema.JoinsKeys rangeKey) {hash range : Json}
    (hfirst : FirstOccursAt schema.separator.toList (schema.encodeId hash range).toList
      hash.keyText.toList.length) :
    schema.keyForId (.str (schema.encodeId hash range)) = (do
      let hash ← schema.coerce schema.hashKey (.str hash.keyText)
      let range ← schema.coerce rangeKey (.str range.keyText)
      return [(schema.hashKey, hash), (rangeKey, range)]) := by
  have hjoined : (schema.encodeId hash range).toList =
      hash.keyText.toList ++ schema.separator.toList ++ range.keyText.toList := by
    simp [encodeId]
  have hsplit : splitAtFirst schema.separator.toList (schema.encodeId hash range).toList =
      some (hash.keyText.toList, range.keyText.toList) := by
    rw [hjoined] at hfirst ⊢
    exact splitAtFirst_eq hfirst
  have hcomposite : schema.isComposite = true := by
    simp [isComposite, hjoins.rangeKey, hjoins.compositeKey]
  have hne : (schema.hashKey == rangeKey) = false := by simpa using hjoins.hash_ne_range
  have htext : (Json.str (schema.encodeId hash range)).keyText = schema.encodeId hash range := rfl
  simp only [keyForId, decodeId, Json.isNull, Bool.false_eq_true, if_false, hcomposite,
    hjoins.rangeKey, htext, hsplit, String.ofList_toList]
  cases schema.coerce schema.hashKey (.str hash.keyText) with
  | error error => rfl
  | ok hash =>
    cases schema.coerce rangeKey (.str range.keyText) with
    | error error => rfl
    | ok range => simp [Record.set, hne]

/-- The identifier of a record names its key, provided that the numbers in it are integers of the
signed 64-bit range. -/
theorem JoinsKeys.keyForId (hjoins : schema.JoinsKeys rangeKey) {hash range : Json}
    (hwritten : schema.IsWritten rangeKey written hash range)
    (hfirst : FirstOccursAt schema.separator.toList (schema.encodeId hash range).toList
      hash.keyText.toList.length)
    (hinteger : ∀ n, hash = .num n ∨ range = .num n → n.int64?.isSome) :
    schema.keyForId (.str (schema.encodeId hash range)) =
      .ok [(schema.hashKey, hash), (rangeKey, range)] := by
  obtain ⟨hashType, hhashType, hhashScalar⟩ := hjoins.hashType
  obtain ⟨rangeType, hrangeType, hrangeScalar⟩ := hjoins.rangeType
  have hhash := (coerce_keyText hhashType hhashScalar hwritten.admits_hash
    hwritten.hash_ne_null).1 fun n hn => hinteger n (.inl hn)
  have hrange := (coerce_keyText hrangeType hrangeScalar hwritten.admits_range
    hwritten.range_ne_null).1 fun n hn => hinteger n (.inr hn)
  rw [hjoins.keyForId_encodeId hfirst, hhash, hrange]
  rfl

/-- An identifier that names a key has no other numbers in it than integers of the signed 64-bit
range. -/
theorem JoinsKeys.isSome_int64? (hjoins : schema.JoinsKeys rangeKey) {hash range : Json}
    (hwritten : schema.IsWritten rangeKey written hash range)
    (hfirst : FirstOccursAt schema.separator.toList (schema.encodeId hash range).toList
      hash.keyText.toList.length) {key : Record}
    (hkey : schema.keyForId (.str (schema.encodeId hash range)) = .ok key) {n : Number}
    (hn : hash = .num n ∨ range = .num n) : n.int64?.isSome := by
  obtain ⟨hashType, hhashType, hhashScalar⟩ := hjoins.hashType
  obtain ⟨rangeType, hrangeType, hrangeScalar⟩ := hjoins.rangeType
  rw [hjoins.keyForId_encodeId hfirst] at hkey
  obtain ⟨_, hhash, hkey⟩ := bind_eq_ok_iff.1 hkey
  obtain ⟨_, hrange, -⟩ := bind_eq_ok_iff.1 hkey
  rcases hn with hn | hn
  · exact (coerce_keyText hhashType hhashScalar hwritten.admits_hash hwritten.hash_ne_null).2
      ⟨_, hhash⟩ n hn
  · exact (coerce_keyText hrangeType hrangeScalar hwritten.admits_range hwritten.range_ne_null).2
      ⟨_, hrange⟩ n hn

/-- A text that is stored with the type of a key is coerced to what is stored. -/
theorem coerce_str_of_admits {name text : String}
    (h : (schema.scalarType name).admits (schema.coerceDate name (.str text)).toAttribute) :
    schema.coerce name (.str text) = .ok (schema.coerceDate name (.str text)) := by
  unfold coerceDate scalarType at h
  unfold coerce coerceDate
  cases htype : schema.type? name with
  | none => rfl
  | some type =>
    simp only [htype] at h
    cases type with
    | string | boolean | json => rfl
    | number => cases h
    | date =>
      cases hdate : dateToJson? text with
      | none =>
        simp only [hdate] at h
        cases h
      | some json => simp [coerceKey, hdate]

/-- The hash key of a record without a range key names its key, provided that what is written has
the type of the key. -/
theorem keyForId_of_rangeKey_none (hrange : schema.rangeKey = none)
    (h : schema.prepareWrite fresh record = (.ok id, written)) {stored : Json}
    (hstored : written.get? schema.hashKey = some stored)
    (htype : (schema.scalarType schema.hashKey).admits stored.toAttribute) :
    schema.keyForId id = .ok [(schema.hashKey, stored)] := by
  obtain ⟨hhash, hwritten⟩ := prepareWrite_of_rangeKey_none hrange h
  obtain rfl : schema.coerceDate schema.hashKey id = stored := by simpa [hwritten] using hstored
  have hcoerce : id.isNull = false ∧
      schema.coerce schema.hashKey id = .ok (schema.coerceDate schema.hashKey id) := by
    obtain ⟨-, text, rfl⟩ | ⟨hadmits, hnull⟩ := hashToWrite_eq_ok hhash
    · refine ⟨rfl, coerce_str_of_admits htype⟩
    · exact ⟨hnull, by rw [coerceDate_of_admits hadmits, coerce_of_admits hadmits]⟩
  simp [Schema.keyForId, hcoerce.1, hcoerce.2, hrange, isComposite]

end Schema

end KeyedStore
