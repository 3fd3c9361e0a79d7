import KeyedStore.Proofs.Memory.Pages
import KeyedStore.Proofs.Memory.Reachability
import KeyedStore.Proofs.Memory.Refinement

/-!
# Updates of items

An update is made as a whole or not at all. Its operands are read in the item as it was, whatever
the update assigns, and its removals come last. The item stays under its key, and nothing else
changes.
-/
namespace KeyedStore

open Std

namespace Bindings

variable {bindings : Bindings} {update : Update} {old target result : Item} {name : String}
  {assignments : List Assignment} {paths : List String}

/-- Whether an assignment leaves a value in an attribute: the last one that sets the attribute does,
with its operand read in an item. -/
def AssignsLast (bindings : Bindings) (old : Item) (assignments : List Assignment) (name : String)
    (value : AttributeValue) : Prop :=
  ∃ before assignment after, assignments = before ++ assignment :: after ∧
    bindings.resolve assignment.path = .ok name ∧
    bindings.operand old assignment.value = .ok (some value) ∧
    ∀ other ∈ after, bindings.resolve other.path ≠ .ok name

/-- What an update leaves in an attribute of an item. -/
inductive Leaves (bindings : Bindings) (update : Update) (old : Item) (name : String) :
    Option AttributeValue → Prop
  | removed (path : String) (listed : path ∈ update.removals)
      (named : bindings.resolve path = .ok name) : Leaves bindings update old name none
  | assigned (value : AttributeValue)
      (unremoved : ∀ path ∈ update.removals, bindings.resolve path ≠ .ok name)
      (assigned : bindings.AssignsLast old update.assignments name value) :
      Leaves bindings update old name (some value)
  | kept (unremoved : ∀ path ∈ update.removals, bindings.resolve path ≠ .ok name)
      (unassigned : ∀ assignment ∈ update.assignments,
        bindings.resolve assignment.path ≠ .ok name) :
      Leaves bindings update old name (old.get? name)

/-- An assignment is made if its path names an attribute and its operand has a value. -/
theorem assign_cons_eq_none_iff {assignment : Assignment} :
    bindings.assign old (assignment :: assignments) target = (none, result) ↔ ∃ name value,
      bindings.resolve assignment.path = .ok name ∧
      bindings.operand old assignment.value = .ok (some value) ∧
      bindings.assign old assignments (target.insert name value) = (none, result) := by
  rw [assign]
  cases hname : bindings.resolve assignment.path with
  | error error => simp
  | ok name =>
    cases hvalue : bindings.operand old assignment.value with
    | error error => simp
    | ok value => cases value <;> simp

/-- Assignments leave the value of the last one of each attribute, and the other attributes as they
are in the target. -/
theorem get?_of_assign (h : bindings.assign old assignments target = (none, result))
    (name : String) :
    (∃ value, bindings.AssignsLast old assignments name value ∧ result.get? name = some value) ∨
      (∀ assignment ∈ assignments, bindings.resolve assignment.path ≠ .ok name) ∧
        result.get? name = target.get? name := by
  induction assignments generalizing target with
  | nil =>
    cases h
    exact .inr ⟨nofun, rfl⟩
  | cons assignment rest ih =>
    obtain ⟨own, value, hown, hvalue, hrest⟩ := assign_cons_eq_none_iff.1 h
    obtain ⟨last, ⟨before, other, after, hsplit, hlast⟩, hget⟩ | ⟨hnone, hget⟩ := ih hrest
    · exact .inl ⟨last, ⟨assignment :: before, other, after, by rw [hsplit, List.cons_append],
        hlast⟩, hget⟩
    · rw [OrderedMap.get?_insert] at hget
      by_cases heq : name = own
      · subst heq
        rw [if_pos ReflCmp.compare_self] at hget
        exact .inl ⟨value, ⟨[], assignment, rest, rfl, hown, hvalue, hnone⟩, hget⟩
      · rw [if_neg fun hcompare => heq (LawfulEqCmp.eq_of_compare hcompare)] at hget
        refine .inr ⟨List.forall_mem_cons.2 ⟨fun hname => heq ?_, hnone⟩, hget⟩
        exact Except.ok.inj (hname.symm.trans hown)

/-- Assignments are made if each of them can be. -/
theorem exists_assign_iff : (∃ result, bindings.assign old assignments target = (none, result)) ↔
    ∀ assignment ∈ assignments, ∃ name value, bindings.resolve assignment.path = .ok name ∧
      bindings.operand old assignment.value = .ok (some value) := by
  induction assignments generalizing target with
  | nil => simp [assign]
  | cons assignment rest ih =>
    simp only [assign_cons_eq_none_iff, List.forall_mem_cons]
    constructor
    · rintro ⟨result, name, value, hname, hvalue, hrest⟩
      exact ⟨⟨name, value, hname, hvalue⟩, ih.1 ⟨result, hrest⟩⟩
    · rintro ⟨⟨name, value, hname, hvalue⟩, hrest⟩
      obtain ⟨result, hresult⟩ := ih.2 hrest
      exact ⟨result, name, value, hname, hvalue, hresult⟩

theorem remove_cons_eq_none_iff {path : String} :
    bindings.remove (path :: paths) target = (none, result) ↔ ∃ name,
      bindings.resolve path = .ok name ∧
      bindings.remove paths (OrderedMap.erase target name) = (none, result) := by
  rw [remove]
  cases bindings.resolve path <;> simp

/-- Removals leave nothing in the attributes that they name. -/
theorem get?_of_remove (h : bindings.remove paths target = (none, result)) (name : String) :
    (∃ path ∈ paths, bindings.resolve path = .ok name) ∧ result.get? name = none ∨
      (∀ path ∈ paths, bindings.resolve path ≠ .ok name) ∧ result.get? name = target.get? name := by
  induction paths generalizing target with
  | nil =>
    cases h
    exact .inr ⟨nofun, rfl⟩
  | cons path rest ih =>
    obtain ⟨own, hown, hrest⟩ := remove_cons_eq_none_iff.1 h
    obtain ⟨⟨other, hmem, hother⟩, hget⟩ | ⟨hnone, hget⟩ := ih hrest
    · exact .inl ⟨⟨other, List.mem_cons_of_mem path hmem, hother⟩, hget⟩
    · rw [OrderedMap.get?_erase] at hget
      by_cases heq : name = own
      · subst heq
        rw [if_pos ReflCmp.compare_self] at hget
        exact .inl ⟨⟨path, List.mem_cons_self, hown⟩, hget⟩
      · rw [if_neg fun hcompare => heq (LawfulEqCmp.eq_of_compare hcompare)] at hget
        refine .inr ⟨List.forall_mem_cons.2 ⟨fun hname => heq ?_, hnone⟩, hget⟩
        exact Except.ok.inj (hname.symm.trans hown)

theorem exists_remove_iff : (∃ result, bindings.remove paths target = (none, result)) ↔
    ∀ path ∈ paths, ∃ name, bindings.resolve path = .ok name := by
  induction paths generalizing target with
  | nil => simp [remove]
  | cons path rest ih =>
    simp only [remove_cons_eq_none_iff, List.forall_mem_cons]
    constructor
    · rintro ⟨result, name, hname, hrest⟩
      exact ⟨⟨name, hname⟩, ih.1 ⟨result, hrest⟩⟩
    · rintro ⟨⟨name, hname⟩, hrest⟩
      obtain ⟨result, hresult⟩ := ih.2 hrest
      exact ⟨result, name, hname, hresult⟩

theorem apply_eq_none_iff : bindings.apply old update target = (none, result) ↔ ∃ middle,
    bindings.assign old update.assignments target = (none, middle) ∧
      bindings.remove update.removals middle = (none, result) := by
  unfold apply
  split
  case h_1 middle hmiddle => simp [hmiddle]
  case h_2 hfailed =>
    constructor
    · intro h
      exact absurd h (hfailed result)
    · rintro ⟨middle, hmiddle, -⟩
      exact absurd hmiddle (hfailed middle)

/-- An update of an item leaves in each attribute what it says. -/
theorem leaves_of_apply (h : bindings.apply old update old = (none, result)) (name : String) :
    bindings.Leaves update old name (result.get? name) := by
  obtain ⟨middle, hassign, hremove⟩ := apply_eq_none_iff.1 h
  obtain ⟨⟨path, hmem, hpath⟩, hget⟩ | ⟨hunremoved, hget⟩ := get?_of_remove hremove name
  · rw [hget]
    exact .removed path hmem hpath
  · rw [hget]
    obtain ⟨value, hlast, hvalue⟩ | ⟨hunassigned, hkept⟩ := get?_of_assign hassign name
    · rw [hvalue]
      exact .assigned value hunremoved hlast
    · rw [hkept]
      exact .kept hunremoved hunassigned

end Bindings

/-- An item with the key attributes of what stands under a key, or of the item that is asked for
where nothing does, is stored under that key. -/
theorem TableStorage.IsSound.exists_put {storage : TableStorage} (h : storage.IsSound)
    {asked item : Item} {key : PrimaryKey} (hasked : storage.keySchema.keyOf asked = .ok key)
    (hkeys : ∀ name ∈ storage.keySchema.names,
      item.get? name = ((storage.get? key).getD asked).get? name) :
    ∃ after, storage.put item = .ok (storage.get? key, after) ∧
      ∀ other, after.get? other = if other.same key then some item else storage.get? other := by
  obtain ⟨own, hown, hsame⟩ := h.exists_keyOf_getD hasked
  rw [← KeySchema.keyOf_congr hkeys] at hown
  obtain ⟨replaced, after, hput⟩ : ∃ replaced after, storage.put item = .ok (replaced, after) := by
    unfold TableStorage.put
    rw [hown]
    exact ⟨_, _, rfl⟩
  obtain ⟨own', hown', rfl, -, hget⟩ := TableStorage.put_eq_ok hput
  obtain rfl : own = own' := Except.ok.inj (hown.symm.trans hown')
  refine ⟨after, by rw [hput, TableStorage.get?_of_same hsame], fun other => ?_⟩
  -- The item may spell its key otherwise than the one that asks for it.
  have hcongr : other.same own ↔ other.same key :=
    ⟨fun hother => PrimaryKey.same_trans hother (PrimaryKey.same_comm ▸ hsame),
      fun hother => PrimaryKey.same_trans hother hsame⟩
  rw [hget]
  exact if_congr hcongr rfl rfl

namespace MemoryStore

variable {schema : KeySchema} {bindings : Bindings} {update : Update} {old item : Item}
  {name path : String}

/-- Whether an update can be applied to an item: all its paths name attributes that are not part of
the key, and the operands of its assignments have values. -/
structure Permits (schema : KeySchema) (bindings : Bindings) (update : Update) (old : Item) :
    Prop where
  path : ∀ path ∈ update.paths, ∃ name, bindings.resolve path = .ok name ∧ name ∉ schema.names
  value : ∀ assignment ∈ update.assignments, ∃ value,
    bindings.operand old assignment.value = .ok (some value)

theorem checkPath_eq_ok_iff : checkPath schema bindings path = .ok () ↔
    ∃ name, bindings.resolve path = .ok name ∧ name ∉ schema.names := by
  unfold checkPath
  rw [bind_eq_ok_iff]
  refine exists_congr fun name => and_congr mapError_eq_ok_iff ?_
  split <;> simp_all [pure, Except.pure]

theorem updated_eq_ok_iff : updated schema bindings update old = .ok item ↔
    (∀ path ∈ update.paths, ∃ name, bindings.resolve path = .ok name ∧ name ∉ schema.names) ∧
      bindings.apply old update old = (none, item) := by
  have hpaths : update.paths.forM (checkPath schema bindings) = .ok () ↔
      ∀ path ∈ update.paths, ∃ name, bindings.resolve path = .ok name ∧ name ∉ schema.names := by
    simp only [forM_eq_ok_iff, checkPath_eq_ok_iff]
  rw [← hpaths]
  unfold updated
  refine bind_eq_ok_iff.trans ⟨fun ⟨(), hchecked, h⟩ => ⟨hchecked, ?_⟩, fun ⟨hchecked, h⟩ =>
    ⟨(), hchecked, by rw [h]⟩⟩
  split at h <;> simp_all

theorem exists_updated_iff : (∃ item, updated schema bindings update old = .ok item) ↔
    Permits schema bindings update old := by
  simp only [updated_eq_ok_iff, Bindings.apply_eq_none_iff]
  constructor
  · rintro ⟨item, hpaths, middle, hassign, -⟩
    refine ⟨hpaths, fun assignment hmem => ?_⟩
    obtain ⟨-, value, -, hvalue⟩ := Bindings.exists_assign_iff.1 ⟨middle, hassign⟩ assignment hmem
    exact ⟨value, hvalue⟩
  · rintro ⟨hpaths, hvalues⟩
    obtain ⟨middle, hmiddle⟩ : ∃ middle,
        bindings.assign old update.assignments old = (none, middle) := by
      refine Bindings.exists_assign_iff.2 fun assignment hmem => ?_
      obtain ⟨name, hname, -⟩ := hpaths assignment.path
        (List.mem_append_left _ (List.mem_map_of_mem hmem))
      obtain ⟨value, hvalue⟩ := hvalues assignment hmem
      exact ⟨name, value, hname, hvalue⟩
    obtain ⟨item, hitem⟩ : ∃ item, bindings.remove update.removals middle = (none, item) := by
      refine Bindings.exists_remove_iff.2 fun path hmem => ?_
      obtain ⟨name, hname, -⟩ := hpaths path (List.mem_append_right _ hmem)
      exact ⟨name, hname⟩
    exact ⟨item, hpaths, middle, hmiddle, hitem⟩

/-- An update leaves the key attributes as they are. -/
theorem get?_of_updated (h : updated schema bindings update old = .ok item)
    (hname : name ∈ schema.names) : item.get? name = old.get? name := by
  obtain ⟨hpaths, happly⟩ := updated_eq_ok_iff.1 h
  have hunnamed (path : String) (hmem : path ∈ update.paths) :
      bindings.resolve path ≠ .ok name := by
    intro hpath
    obtain ⟨own, hown, hnot⟩ := hpaths path hmem
    cases hown.symm.trans hpath
    exact hnot hname
  have hleaves := Bindings.leaves_of_apply happly name
  generalize item.get? name = value at hleaves ⊢
  cases hleaves with
  | removed path listed named => exact absurd named (hunnamed path (List.mem_append_right _ listed))
  | assigned value unremoved assigned =>
    obtain ⟨before, assignment, after, hsplit, hpath, -⟩ := assigned
    refine absurd hpath (hunnamed _ (List.mem_append_left _ (List.mem_map_of_mem ?_)))
    simp [hsplit]
  | kept => rfl

variable {config : MemoryConfig} {store after : MemoryStore} {request : UpdateItem}
  {answer : ItemAnswer} {table : MemoryTable} {key : PrimaryKey}

/-- What an update that is answered makes of the item under its key and of the storage that the item
is in, and what it answers. -/
structure IsUpdated (request : UpdateItem) (table : MemoryTable) (key : PrimaryKey)
    (update : Update) (storage : TableStorage) (item : Item) (answer : ItemAnswer) : Prop where
  leaves : ∀ name,
    request.bindings.Leaves update (request.original table key) name (item.get? name)
  keyAttributes : ∀ name ∈ table.storage.keySchema.names,
    item.get? name = (request.original table key).get? name
  stands : ∀ other,
    storage.get? other = if other.same key then some item else table.storage.get? other
  keySchema : storage.keySchema = table.storage.keySchema
  itemCount : storage.itemCount =
    if table.storage.get? key = none then table.storage.itemCount + 1
    else table.storage.itemCount
  allNew : request.returnValues = some .allNew → answer.item = some item
  allOld : request.returnValues = some .allOld → answer.item = table.storage.get? key
  none : request.returnValues ≠ some .allNew → request.returnValues ≠ some .allOld →
    answer.item = none

theorem isUpdated_of_updateItem (hsound : store.IsSound)
    (h : store.updateItem request = .ok (answer, after)) : ∃ table key update storage item,
      store.table request.table = .ok table ∧
      requestKey table.storage.keySchema request.key = .ok key ∧ request.parsed = .ok update ∧
      IsUpdated request table key update storage item answer ∧
      after = store.setTable { table with storage } := by
  obtain ⟨table, key, update, item, replaced, storage, htable, hkey, hparsed, hitem, hput, rfl,
    hafter⟩ := updateItem_eq_ok_iff.1 h
  obtain ⟨stored, hstored, hstands⟩ := (hsound.storage_of_table htable).exists_put
    (keyOf_of_requestKey hkey) fun name hname => get?_of_updated hitem hname
  cases hstored.symm.trans hput
  refine ⟨table, key, update, storage, item, htable, hkey, hparsed, ?_, hafter⟩
  have hcount := TableStorage.itemCount_put hput
  exact {
    leaves := Bindings.leaves_of_apply (updated_eq_ok_iff.1 hitem).2
    keyAttributes := fun name hname => get?_of_updated hitem hname
    stands := hstands
    keySchema := TableStorage.keySchema_put hput
    itemCount := by simpa [Option.isNone_iff_eq_none] using hcount
    allNew := fun hreturn => by simp [UpdateItem.answered, hreturn]
    allOld := fun hreturn => by simp [UpdateItem.answered, hreturn]
    none := fun hnew hold => by
      unfold UpdateItem.answered
      cases hreturn : request.returnValues with
      | none => rfl
      | some values => cases values <;> simp_all }

/-- An update is answered if its key and its expression can be read and the item permits it. -/
theorem exists_updateItem_iff (hsound : store.IsSound) :
    (∃ answer after, store.updateItem request = .ok (answer, after)) ↔ ∃ table key update,
      store.table request.table = .ok table ∧
      requestKey table.storage.keySchema request.key = .ok key ∧ request.parsed = .ok update ∧
      Permits table.storage.keySchema request.bindings update (request.original table key) := by
  simp only [updateItem_eq_ok_iff]
  constructor
  · rintro ⟨answer, after, table, key, update, item, -, -, htable, hkey, hparsed, hitem, -⟩
    exact ⟨table, key, update, htable, hkey, hparsed, exists_updated_iff.1 ⟨item, hitem⟩⟩
  · rintro ⟨table, key, update, htable, hkey, hparsed, hpermits⟩
    obtain ⟨item, hitem⟩ := exists_updated_iff.2 hpermits
    obtain ⟨storage, hput, -⟩ := (hsound.storage_of_table htable).exists_put
      (keyOf_of_requestKey hkey) fun name hname => get?_of_updated hitem hname
    exact ⟨_, _, table, key, update, item, _, storage, htable, hkey, hparsed, hitem, hput, rfl, rfl⟩

/-- An update is made as a whole, with its operands read in the item as it was, or it changes
nothing. It is made exactly if its table, its key and its expression are in order and the item
permits it. -/
theorem updateItem_atomic (hreaches : (empty config).Reaches store) (request : UpdateItem) :
    (∀ error after, respond (.updateItem request) store = (.error error, after) →
      after = store) ∧
    (∀ (answer : ItemAnswer) after,
      respond (.updateItem request) store = (.ok answer, after) →
        ∃ table key update storage item, store.table request.table = .ok table ∧
          requestKey table.storage.keySchema request.key = .ok key ∧
          request.parsed = .ok update ∧
          IsUpdated request table key update storage item answer ∧
          after.config = store.config ∧
          ∀ name, after.tables.get? name =
            if name = request.table then some { table with storage }
            else store.tables.get? name) ∧
    ((∃ (answer : ItemAnswer) (after : MemoryStore),
      respond (.updateItem request) store = (.ok answer, after)) ↔
        ∃ table key update, store.table request.table = .ok table ∧
          requestKey table.storage.keySchema request.key = .ok key ∧
          request.parsed = .ok update ∧
          Permits table.storage.keySchema request.bindings update
            (request.original table key)) := by
  have hsound : store.IsSound := hreaches.isSound (isSound_empty config)
  have hok {answer : ItemAnswer} {after : MemoryStore} :
      respond (.updateItem request) store = (.ok answer, after) ↔
        store.updateItem request = .ok (answer, after) := respond_eq_ok_iff
  refine ⟨fun error after h => eq_of_respond_eq_error h, fun answer after h => ?_, ?_⟩
  · obtain ⟨table, key, update, storage, item, htable, hkey, hparsed, hupdated, rfl⟩ :=
      isUpdated_of_updateItem hsound (hok.1 h)
    refine ⟨table, key, update, storage, item, htable, hkey, hparsed, hupdated, rfl, fun name => ?_⟩
    rw [get?_setTable, ← hsound.name_of_table htable]
  · simp only [hok]
    exact exists_updateItem_iff hsound

def fixtures : MemoryStore := (empty {}).serve [
  .createTable {
    table := "fixtures"
    keyElements := [⟨"id", .hash⟩]
    definitions := [⟨"id", .string⟩] },
  .putItem {
    table := "fixtures"
    item := [("first", .string "ann"), ("id", .string "1"), ("note", .string "late"),
      ("second", .string "bob")] }]

def swapPlayers : UpdateItem where
  table := "fixtures"
  key := [("id", .string "1")]
  update := some "SET first = second, #s = first REMOVE note"
  names := [("#s", "second")]
  returnValues := some .allNew

/-- Each player gets the place that the other one had. -/
theorem updateItem_swapPlayers : (empty {}).Reaches fixtures ∧
    ∃ (answer : ItemAnswer) (after : MemoryStore) (table : MemoryTable) (key : PrimaryKey)
        (update : Update) (storage : TableStorage),
      respond (.updateItem swapPlayers) fixtures = (.ok answer, after) ∧
      fixtures.table "fixtures" = .ok table ∧
      IsUpdated swapPlayers table key update storage
        [("first", .string "bob"), ("id", .string "1"), ("second", .string "ann")] answer ∧
      ∀ name, after.tables.get? name =
        if name = "fixtures" then some { table with storage } else fixtures.tables.get? name := by
  have hreaches : (empty {}).Reaches fixtures := reaches_serve _ _
  have hanswered : ((respond (.updateItem swapPlayers) fixtures).1.toOption.bind
      fun answer : ItemAnswer => answer.item) =
        some [("first", .string "bob"), ("id", .string "1"), ("second", .string "ann")] := by
    decide +kernel
  cases hresponse : respond (.updateItem swapPlayers) fixtures with
  | mk result after =>
    rw [hresponse] at hanswered
    obtain ⟨answer, hanswer, hitem⟩ := Option.bind_eq_some_iff.1 hanswered
    obtain rfl := toOption_eq_some_iff.1 hanswer
    obtain ⟨table, key, update, storage, item, htable, -, -, hupdated, -, hafter⟩ :=
      (updateItem_atomic hreaches swapPlayers).2.1 answer after hresponse
    obtain rfl := Option.some.inj ((hupdated.allNew rfl).symm.trans hitem)
    exact ⟨hreaches, answer, after, table, key, update, storage, rfl, htable, hupdated, hafter⟩

end MemoryStore

end KeyedStore
