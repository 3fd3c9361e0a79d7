import KeyedStore.Proofs.Attribute.RoundTrip
import KeyedStore.Proofs.Connector.Requests
import KeyedStore.Proofs.Expression.Updates
import KeyedStore.Proofs.Key.Identifiers
import KeyedStore.Proofs.Plan.Verdict

/-!
# Updated records

The request that sets attributes of a record is parsed back to the assignments that it is made of,
so the item under its key has the values that were to be set, and its other attributes as before.
-/
namespace KeyedStore

/-- Whether an assignment sets an attribute to a value. -/
structure Bindings.Assigns (bindings : Bindings) (assignment : Assignment)
    (entry : String × AttributeValue) : Prop where
  resolve : bindings.resolve assignment.path = .ok entry.1
  operand : ∀ item, bindings.operand item assignment.value = .ok (some entry.2)

/-- Assignments set their attributes one after the other. -/
theorem Bindings.assign_eq {bindings : Bindings} {item target : Item}
    {assignments : List Assignment} {entries : List (String × AttributeValue)}
    (h : List.Forall₂ bindings.Assigns assignments entries) :
    bindings.assign item assignments target = (none, OrderedMap.insertAll target entries) := by
  induction h generalizing target with
  | nil => rfl
  | cons hfirst _ ih => simp [Bindings.assign, hfirst.resolve, hfirst.operand item, ih,
      OrderedMap.insertAll]

/-- The values of a record are set in an item. -/
theorem get?_insertAll_record {record : Record} (hdistinct : (record.map (·.1)).Nodup)
    (item : Item) (name : String) :
    OrderedMap.get? (OrderedMap.insertAll item (record.map fun entry =>
        (entry.1, entry.2.toAttribute))) name =
      ((record.get? name).map Json.toAttribute).or (item.get? name) := by
  induction record generalizing item with
  | nil => rfl
  | cons entry rest ih =>
    obtain ⟨key, value⟩ := entry
    obtain ⟨hkey, hrest⟩ := List.nodup_cons.1 hdistinct
    have hset := ih hrest (item.insert key value.toAttribute)
    rw [OrderedMap.get?_insert] at hset
    by_cases heq : key = name
    · subst heq
      have hnone : Record.get? rest key = none := Record.get?_eq_none_iff.2 hkey
      rw [hnone, if_pos Std.ReflCmp.compare_self] at hset
      simpa [Record.get?, OrderedMap.insertAll] using hset
    · have hne : compare name key ≠ .eq := fun h => heq (Std.LawfulEqCmp.eq_of_compare h).symm
      simpa [Record.get?, heq, hne, OrderedMap.insertAll] using hset

namespace Placeholders

variable {placeholders : Placeholders}

/-- Whether an assignment is written with placeholders for an entry of a record. -/
structure Assigns (placeholders : Placeholders) (assignment : Assignment)
    (entry : String × Json) : Prop where
  path : placeholders.attribute? (.path assignment.path) = some entry.1
  value : placeholders.value? assignment.value = some entry.2

theorem Assigns.mono {after : Placeholders} {assignment : Assignment} {entry : String × Json}
    (h : placeholders.Assigns assignment entry) (hext : placeholders.Extends after) :
    after.Assigns assignment entry where
  path := hext.attribute? h.path
  value := hext.value? h.value

theorem Assigns.isLexical {assignment : Assignment} {entry : String × Json}
    (h : placeholders.Assigns assignment entry) (hsound : placeholders.IsSound) :
    assignment.IsLexical :=
  ⟨hsound.isLexical_of_attribute? h.path, hsound.isLexical_of_value? h.value⟩

theorem Assigns.bindings {assignment : Assignment} {entry : String × Json}
    (h : placeholders.Assigns assignment entry) (hsound : placeholders.IsSound) :
    placeholders.bindings.Assigns assignment (entry.1, entry.2.toAttribute) where
  resolve := by
    obtain ⟨text, heq, hresolve⟩ := exists_resolve_of_attribute? hsound h.path
    cases heq
    exact hresolve
  operand _ := operand_of_value? h.value

/-- The entries of a record are assigned one by one. -/
theorem assign_spec (hsound : placeholders.IsSound) (record : Record) :
    ∃ assignments after, Schema.updateRequest?.assign placeholders record = (assignments, after) ∧
      after.IsSound ∧ placeholders.Extends after ∧
        List.Forall₂ after.Assigns assignments record := by
  induction record generalizing placeholders with
  | nil => exact ⟨[], placeholders, rfl, hsound, .refl _, .nil⟩
  | cons entry rest ih =>
    obtain ⟨name, value⟩ := entry
    have hsuffix : ∀ c ∈ "".toList, Token.isWordChar c := by simp
    let named := placeholders.name name
    have hnamed : named.2.IsSound := hsound.name
    let bound := named.2.value name "" value
    have hbound : bound.2.IsSound := hnamed.value hsuffix
    have hnamedExt : placeholders.Extends named.2 := extends_name
    have hboundExt : named.2.Extends bound.2 := extends_value hsuffix
    obtain ⟨assignments, after, hassign, hafter, hext, hassigned⟩ := ih hbound
    have hfirst : bound.2.Assigns ⟨named.1, .value bound.1⟩ (name, value) :=
      ⟨hboundExt.names _ _ hsound.get?_name, get?_value hsuffix⟩
    refine ⟨⟨named.1, .value bound.1⟩ :: assignments, after, ?_, hafter,
      (hnamedExt.trans hboundExt).trans hext, .cons (hfirst.mono hext) hassigned⟩
    simp only [Schema.updateRequest?.assign]
    rw [hassign]

end Placeholders

namespace MemoryStore

variable {store after : MemoryStore}

/-- An update of assignments sets their values in the item under a key, or in the key itself, and
answers that item if it is asked to. -/
theorem updateItem_eq_ok {request : UpdateItem} {answer : ItemAnswer} {text : String}
    {assignments : List Assignment} {entries : List (String × AttributeValue)}
    (htext : request.update = some text) (hparse : Update.parse text = .ok { assignments })
    (hreturn : request.returnValues = some .allNew)
    (hassigned : List.Forall₂
      (Bindings.Assigns { names := request.names, values := request.values }) assignments entries)
    (h : store.updateItem request = .ok (answer, after)) : ∃ table key replaced storage,
      store.table request.table = .ok table ∧
      requestKey table.storage.keySchema request.key = .ok key ∧
      let changed := OrderedMap.insertAll ((table.storage.get? key).getD request.key) entries
      table.storage.put changed = .ok (replaced, storage) ∧ answer.item = some changed ∧
      after = store.setTable { table with storage } := by
  obtain ⟨table, key, update, changed, replaced, storage, htable, hkey, hparsed, hchanged, hput,
    rfl, hafter⟩ := updateItem_eq_ok_iff.1 h
  obtain rfl : { assignments } = update := by simpa [UpdateItem.parsed, htext, hparse] using hparsed
  obtain ⟨-, -, hchanged⟩ := bind_eq_ok_iff.1 hchanged
  simp only [Bindings.apply, UpdateItem.bindings, Bindings.assign_eq hassigned,
    Bindings.remove] at hchanged
  cases hchanged
  exact ⟨table, key, replaced, storage, htable, hkey, hput,
    by simp [UpdateItem.answered, UpdateItem.original, hreturn], hafter⟩

end MemoryStore

namespace Schema

variable {schema : Schema} {rangeKey name : String} {id : Json} {key changes : Record}

/-- The value to which an update of the record with a key sets an attribute, if it sets it: the
identifier that the key says, or the change, if it is not null, with its date coerced. -/
def setting? (schema : Schema) (key changes : Record) (name : String) : Option Json :=
  if schema.isKey name then none
  else if schema.isComposite ∧ schema.compositeKey = some name then
    (schema.identifier? key).map Json.str
  else ((changes.get? name).filter fun value => !value.isNull).map (schema.coerceDate name)

/-- The changes of the record with a key, with the identifier that the key says. -/
def identified (schema : Schema) (key changes : Record) : Record :=
  match schema.compositeKey, schema.rangeKey with
  | some compositeKey, some rangeKey =>
    let value (name : String) : Json := (key.get? name).getD .null
    (schema.coerceDates changes).set compositeKey
      (.str (schema.encodeId (value schema.hashKey) (value rangeKey)))
  | _, _ => schema.coerceDates changes

/-- The changes that an update of the record with a key assigns. -/
def assigned (schema : Schema) (key changes : Record) : Record :=
  (schema.identified key changes).filter fun (name, value) => !value.isNull && !schema.isKey name

theorem map_fst_coerceDates (schema : Schema) (record : Record) :
    (schema.coerceDates record).map (·.1) = record.map (·.1) := by
  rw [coerceDates, List.map_map]
  refine List.map_congr_left ?_
  rintro ⟨name, value⟩ -
  simp only [Function.comp_apply]
  split <;> rfl

theorem nodup_identified (h : (changes.map (·.1)).Nodup) :
    ((schema.identified key changes).map (·.1)).Nodup := by
  have hcoerced : ((schema.coerceDates changes).map (·.1)).Nodup :=
    schema.map_fst_coerceDates changes ▸ h
  unfold identified
  split
  · exact Record.nodup_set hcoerced
  · exact hcoerced

theorem nodup_assigned (h : (changes.map (·.1)).Nodup) :
    ((schema.assigned key changes).map (·.1)).Nodup :=
  (nodup_identified h).sublist (List.filter_sublist.map _)

/-- A composite identifier names a hash and a range. -/
theorem keyForId_eq_ok_of_isComposite (h : schema.keyForId id = .ok key)
    (hcomposite : schema.isComposite) (hrange : schema.rangeKey = some rangeKey) :
    ∃ hash range, key = Record.set [(schema.hashKey, hash)] rangeKey range := by
  unfold keyForId at h
  split at h
  case isTrue => cases h
  case isFalse =>
    simp only [hcomposite, hrange] at h
    obtain ⟨⟨hash, range⟩, -, h⟩ := bind_eq_ok_iff.1 h
    cases h
    exact ⟨hash, range, rfl⟩

/-- The key that a composite identifier names has the identifier that is made of its values. -/
theorem identifier?_of_keyForId (h : schema.keyForId id = .ok key)
    (hcomposite : schema.isComposite) (hrange : schema.rangeKey = some rangeKey) :
    schema.identifier? key = some (schema.encodeId ((key.get? schema.hashKey).getD .null)
      ((key.get? rangeKey).getD .null)) := by
  obtain ⟨hash, range, rfl⟩ := keyForId_eq_ok_of_isComposite h hcomposite hrange
  have hhash : (Record.get? (Record.set [(schema.hashKey, hash)] rangeKey range)
      schema.hashKey).isSome := by
    rw [Record.get?_set]
    split <;> simp [Record.get?]
  obtain ⟨stored, hstored⟩ := Option.isSome_iff_exists.1 hhash
  simp [identifier?, hrange, hstored, Record.get?_set]

/-- What is assigned is what an update is to set. -/
theorem get?_assigned (hkey : schema.keyForId id = .ok key) (hdistinct : (changes.map (·.1)).Nodup)
    (name : String) : (schema.assigned key changes).get? name = schema.setting? key changes name := by
  have hnull : ((schema.coerceDates changes).get? name).filter (fun value => !value.isNull) =
      ((changes.get? name).filter fun value => !value.isNull).map (schema.coerceDate name) := by
    rw [get?_coerceDates]
    cases changes.get? name with
    | none => rfl
    | some value => simp [Option.filter_some, isNull_coerceDate, apply_ite]
  rw [assigned, Record.get?_filter (nodup_identified hdistinct), setting?]
  by_cases hname : schema.isKey name
  · simp [hname]
  simp only [hname, Bool.not_false, Bool.and_true, Bool.false_eq_true, if_false]
  unfold identified
  cases hcomposite : schema.compositeKey with
  | none => simpa [isComposite, hcomposite] using hnull
  | some compositeKey =>
    cases hrange : schema.rangeKey with
    | none => simpa [isComposite, hrange] using hnull
    | some rangeKey =>
      have hjoined : schema.isComposite = true := by simp [isComposite, hcomposite, hrange]
      rw [Record.get?_set]
      by_cases heq : name = compositeKey
      · simp [heq, hjoined, identifier?_of_keyForId hkey hjoined hrange, Option.filter_some,
          Json.isNull]
      · simpa [heq, Ne.symm heq, hjoined] using hnull

/-- An update that has anything to set is a request for its assignments. -/
theorem updateRequest?_cases (schema : Schema) (key changes : Record) :
    (schema.assigned key changes = [] ∧ schema.updateRequest? key changes = none) ∨
    ∃ (assignments : List Assignment) (placeholders : Placeholders),
      schema.updateRequest? key changes = some {
        table := schema.tableName
        key := Record.toItem key
        update := some (Update.print { assignments })
        names := placeholders.bindings.names
        values := placeholders.bindings.values
        returnValues := some .allNew } ∧
      placeholders.IsSound ∧ assignments ≠ [] ∧
      List.Forall₂ placeholders.Assigns assignments (schema.assigned key changes) := by
  obtain ⟨assignments, placeholders, hassign, hsound, -, hassigned⟩ :=
    Placeholders.assign_spec Placeholders.isSound_empty (schema.assigned key changes)
  let request (made : List Assignment × Placeholders) : Option UpdateItem :=
    if made.1.isEmpty then none
    else some {
      table := schema.tableName
      key := Record.toItem key
      update := some (Update.print { assignments := made.1 })
      names := made.2.bindings.names
      values := made.2.bindings.values
      returnValues := some .allNew }
  have hrequest : schema.updateRequest? key changes = request (assignments, placeholders) := by
    rw [← hassign]
    rfl
  cases assignments with
  | nil => exact .inl ⟨List.forall₂_nil_left_iff.1 hassigned, hrequest⟩
  | cons first rest =>
    exact .inr ⟨first :: rest, placeholders, hrequest, hsound, by simp, hassigned⟩

theorem JoinsKeys.isComposite (hjoins : schema.JoinsKeys rangeKey) : schema.isComposite := by
  simp [Schema.isComposite, hjoins.rangeKey, hjoins.compositeKey]

theorem JoinsKeys.keyForId_eq_ok (hjoins : schema.JoinsKeys rangeKey)
    (h : schema.keyForId id = .ok key) :
    ∃ hash range, key = [(schema.hashKey, hash), (rangeKey, range)] := by
  obtain ⟨hash, range, rfl⟩ := keyForId_eq_ok_of_isComposite h hjoins.isComposite hjoins.rangeKey
  have hne : (schema.hashKey == rangeKey) = false := by simpa using hjoins.hash_ne_range
  exact ⟨hash, range, by simp [Record.set, hne]⟩

/-- An update of a record with a composite identifier sets the identifier that its key says. -/
theorem JoinsKeys.setting?_idAttribute (hjoins : schema.JoinsKeys rangeKey) (hash range : Json)
    (changes : Record) :
    schema.setting? [(schema.hashKey, hash), (rangeKey, range)] changes idAttribute =
      some (.str (schema.encodeId hash range)) := by
  have hkey : schema.isKey idAttribute = false := by
    simp [isKey, hjoins.rangeKey, hjoins.range_ne_id, Ne.symm hjoins.hash_ne_id]
  simp [setting?, hkey, hjoins.isComposite, hjoins.compositeKey, hjoins.identifier?_key]

/-- The attributes that the key of a table is read from are the keys of the schema. -/
theorem isKey_of_mem_names (h : name ∈ (schema.readKey none).names) :
    schema.isKey name := by
  cases hrange : schema.rangeKey with
  | none => simp_all [readKey, keySchema, KeySchema.names, KeySchema.attributes, isKey]
  | some rangeKey =>
    have hname : name = schema.hashKey ∨ name = rangeKey := by
      simpa [readKey, keySchema, KeySchema.names, KeySchema.attributes, hrange] using h
    rcases hname with rfl | rfl <;> simp [isKey, hrange]

/-- Whether an item is another one with what an update of the record with a key sets. -/
def IsMerged (schema : Schema) (key changes : Record) (previous merged : Item) : Prop :=
  ∀ name, merged.get? name =
    ((schema.setting? key changes name).map Json.toAttribute).or (previous.get? name)

/-- The key attributes stay as they are. -/
theorem IsMerged.get?_of_isKey {previous merged : Item}
    (h : schema.IsMerged key changes previous merged) (hname : schema.isKey name) :
    merged.get? name = previous.get? name := by
  simp [h name, setting?, hname]

end Schema

namespace Connector

variable {schema : Schema} {rangeKey : String} {changes record : Record} {id : Json}
  {store after : MemoryStore}

/-- An update that succeeds finds the record, if it has nothing to set. Otherwise it puts the item
under the key of the identifier, or the key where there is no item, with what is to be set. -/
theorem update_eq_ok (hdistinct : (changes.map (·.1)).Nodup)
    (h : (Connector.local.update schema id changes).run.run store = (.ok record, after)) :
    ∃ (key : Record) (table : MemoryTable) (own : PrimaryKey),
      schema.keyForId id = .ok key ∧ store.table schema.tableName = .ok table ∧
      MemoryStore.requestKey table.storage.keySchema (Record.toItem key) = .ok own ∧
      (((∀ name, schema.setting? key changes name = none) ∧ after = store ∧
          record = ((table.storage.get? own).map Item.toRecord).getD key) ∨
        ∃ (merged : Item) (replaced : Option Item) (storage : TableStorage),
          (∃ name, (schema.setting? key changes name).isSome) ∧
          schema.IsMerged key changes ((table.storage.get? own).getD (Record.toItem key)) merged ∧
          table.storage.put merged = .ok (replaced, storage) ∧
          after = store.setTable { table with storage } ∧ record = Item.toRecord merged) := by
  obtain ⟨key, _, hrun, h⟩ := Operation.bind_eq_ok_iff.1 h
  obtain ⟨hkey, rfl⟩ := keyForId_eq_ok_iff.1 hrun
  have hset := Schema.get?_assigned hkey hdistinct
  rcases schema.updateRequest?_cases key changes with ⟨hnil, hrequest⟩ |
    ⟨assignments, placeholders, hrequest, hsound, hne, hassigned⟩
  · simp only [hrequest] at h
    obtain ⟨found, _, hfind, hpure⟩ := Operation.bind_eq_ok_iff.1 h
    obtain ⟨rfl, rfl⟩ := Operation.pure_eq_ok_iff.1 hpure
    obtain ⟨rfl, key', answer, hkey', hget, rfl⟩ := find_eq_ok_iff.1 hfind
    obtain rfl : key = key' := Except.ok.inj (hkey.symm.trans hkey')
    obtain ⟨table, own, htable, hown, hitem⟩ := MemoryStore.getItem_eq_ok hget
    refine ⟨key, table, own, hkey, htable, hown, .inl ⟨fun name => ?_, rfl, by rw [hitem]⟩⟩
    rw [← hset, hnil]
    rfl
  · simp only [hrequest] at h
    obtain ⟨answer, middle, hask, hpure⟩ := Operation.bind_eq_ok_iff.1 h
    obtain ⟨rfl, rfl⟩ := Operation.pure_eq_ok_iff.1 hpure
    have hlexical : Update.IsLexical { assignments } :=
      ⟨((List.forall₂_and_left _ _).1 (hassigned.imp fun _ _ h => ⟨h.isLexical hsound, h⟩)).1,
        nofun⟩
    have hparse : Update.parse (Update.print { assignments }) = .ok { assignments } :=
      Update.parse_print hlexical (by simpa [Update.paths] using hne)
    have hbound : List.Forall₂ (Bindings.Assigns
        { names := placeholders.bindings.names, values := placeholders.bindings.values })
        assignments ((schema.assigned key changes).map fun entry =>
          (entry.1, entry.2.toAttribute)) :=
      List.forall₂_map_right_iff.2 (hassigned.imp fun _ _ h => h.bindings hsound)
    obtain ⟨table, own, replaced, storage, htable, hown, hput, hanswer, hafter⟩ :=
      MemoryStore.updateItem_eq_ok rfl hparse rfl hbound (ask_eq_ok_iff.1 hask)
    refine ⟨key, table, own, hkey, htable, hown, .inr ⟨_, replaced, storage, ?_, fun name => ?_,
      hput, hafter, by rw [hanswer]; rfl⟩⟩
    · -- The first assignment sets something.
      obtain ⟨⟨name, value⟩, hmem⟩ : ∃ entry, entry ∈ schema.assigned key changes :=
        List.exists_mem_of_length_pos (hassigned.length_eq ▸ List.length_pos_iff.2 hne)
      refine ⟨name, ?_⟩
      rw [← hset, (Record.get?_eq_some_iff (Schema.nodup_assigned hdistinct)).2 hmem]
      rfl
    · rw [get?_insertAll_record (Schema.nodup_assigned hdistinct), hset]

/-- An update under a composite identifier puts an item with the identifier that its key says and
with the same key attributes. -/
theorem update_eq_ok_of_joinsKeys (hjoins : schema.JoinsKeys rangeKey)
    (hdistinct : (changes.map (·.1)).Nodup)
    (h : (Connector.local.update schema id changes).run.run store = (.ok record, after)) :
    ∃ (hash range : Json) (table : MemoryTable) (own : PrimaryKey) (changed : Item)
      (replaced : Option Item) (storage : TableStorage),
      let key : Record := [(schema.hashKey, hash), (rangeKey, range)]
      schema.keyForId id = .ok key ∧ store.table schema.tableName = .ok table ∧
      MemoryStore.requestKey table.storage.keySchema (Record.toItem key) = .ok own ∧
      changed.get? idAttribute = some (.string (schema.encodeId hash range)) ∧
      (∀ name, schema.isKey name → changed.get? name =
        ((table.storage.get? own).getD (Record.toItem key)).get? name) ∧
      table.storage.put changed = .ok (replaced, storage) ∧
      after = store.setTable { table with storage } := by
  obtain ⟨key, table, own, hkey, htable, hown, hcases⟩ := update_eq_ok hdistinct h
  obtain ⟨hash, range, rfl⟩ := hjoins.keyForId_eq_ok hkey
  have hid := hjoins.setting?_idAttribute hash range changes
  rcases hcases with ⟨hnone, -⟩ | ⟨changed, replaced, storage, -, hmerged, hput, hafter, -⟩
  · cases hid.symm.trans (hnone idAttribute)
  · refine ⟨hash, range, table, own, changed, replaced, storage, hkey, htable, hown, ?_,
      fun name hname => hmerged.get?_of_isKey hname, hput, hafter⟩
    rw [hmerged idAttribute, hid]
    rfl

end Connector

end KeyedStore
