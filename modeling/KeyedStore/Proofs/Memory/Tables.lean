import KeyedStore.Proofs.Memory.Reachability

/-!
# Tables under requests

What an answered request does to each table by itself: tables come from creations only, never
vanish, and keep their description and their key; every look brings one closer to being active. The
pages of names miss no table that was there before the first of them.
-/
namespace KeyedStore

/-- Whether a request looks at a table. -/
def Request.looksAt (name : String) : Request → Bool
  | describeTable request => request.table == name
  | _ => false

/-- Whether a request asks for a new table with a name. -/
def Request.creates (name : String) : Request → Bool
  | createTable request => request.table == name
  | _ => false

theorem Request.looksAt_of_isOnItems {request : Request} (h : request.isOnItems) (name : String) :
    request.looksAt name = false := by
  cases request <;> simp [isOnItems, looksAt] at h ⊢

namespace MemoryStore

variable {store after : MemoryStore} {request : Request} {name : String} {table : MemoryTable}

/-- Replacing the items of a table leaves all else as it is. -/
theorem get?_setTable_storage {name' : String} {written : MemoryTable} {storage : TableStorage}
    (hsound : store.IsSound) (hget : store.tables.get? name = some table)
    (hwritten : store.tables.get? name' = some written)
    (hkeys : storage.keySchema = written.storage.keySchema) :
    ∃ storage', storage'.keySchema = table.storage.keySchema ∧
      (store.setTable { written with storage }).tables.get? name =
        some { table with storage := storage' } := by
  have hname' : written.name = name' := hsound.name hwritten
  by_cases heq : name = name'
  · subst heq
    obtain rfl : table = written := Option.some.inj (hget.symm.trans hwritten)
    refine ⟨storage, hkeys, ?_⟩
    rw [get?_setTable, if_pos hname'.symm]
  · refine ⟨table.storage, rfl, ?_⟩
    rw [get?_setTable, if_neg (by rw [hname']; exact heq), hget]

namespace Change

/-- A table that is there stays as it is, but for its items and for a look at it. -/
theorem get?_of_some (h : store.Change request after) (hsound : store.IsSound)
    (hget : store.tables.get? name = some table) :
    ∃ storage, storage.keySchema = table.storage.keySchema ∧
      (request.isOnItems = false → storage = table.storage) ∧
      after.tables.get? name = some { table with
        pendingPolls := table.pendingPolls - if request.looksAt name then 1 else 0, storage } := by
  have hname : table.name = name := hsound.name hget
  cases h with
  | list request => exact ⟨_, rfl, fun _ => rfl, by simpa [Request.looksAt] using hget⟩
  | read onItems =>
    refine ⟨_, rfl, fun _ => rfl, ?_⟩
    simpa [Request.looksAt_of_isOnItems onItems] using hget
  | @create request made named free =>
    have hne : name ≠ made.name := by
      rintro rfl
      rw [hget] at free
      cases free
    refine ⟨_, rfl, fun _ => rfl, ?_⟩
    rw [get?_setTable, if_neg hne]
    simpa [Request.looksAt] using hget
  | @look request seen found =>
    have hseen := table_eq_ok_iff.1 found
    have hpoll : seen.poll.2.name = request.table := show seen.name = _ from hsound.name hseen
    refine ⟨_, rfl, fun _ => rfl, ?_⟩
    rw [get?_setTable, hpoll]
    split
    case isTrue heq =>
      subst heq
      obtain rfl : table = seen := Option.some.inj (hget.symm.trans hseen)
      simp [Request.looksAt, MemoryTable.poll]
    case isFalse hne => simp [Request.looksAt, hget, Ne.symm hne]
  | put onItems found stored =>
    obtain ⟨storage, hkeys, hafter⟩ := get?_setTable_storage hsound hget
      (table_eq_ok_iff.1 found) (TableStorage.keySchema_put stored)
    refine ⟨storage, hkeys, ?_, ?_⟩
    · simp [onItems]
    · simpa [Request.looksAt_of_isOnItems onItems] using hafter
  | @delete request onItems name' written key found =>
    obtain ⟨storage, hkeys, hafter⟩ := get?_setTable_storage hsound hget
      (table_eq_ok_iff.1 found) (written.storage.keySchema_delete key)
    refine ⟨storage, hkeys, ?_, ?_⟩
    · simp [onItems]
    · simpa [Request.looksAt_of_isOnItems onItems] using hafter

/-- A table that was not there is made by its creation. -/
theorem creation_of_get? (h : store.Change request after) (hsound : store.IsSound)
    (hnone : store.tables.get? name = none) (hget : after.tables.get? name = some table) :
    ∃ creation, request = .createTable creation ∧ creation.table = name ∧
      MemoryTable.ofRequest creation store.config.activationPolls = .ok table := by
  have hkept {name' : String} {old new : MemoryTable}
      (hget : (store.setTable new).tables.get? name = some table)
      (hold : store.tables.get? name' = some old) (hnew : new.name = old.name) : False := by
    rw [get?_setTable, if_neg, hnone] at hget
    · cases hget
    rintro rfl
    rw [hnew, hsound.name hold, hold] at hnone
    cases hnone
  cases h with
  | list | read =>
    rw [hnone] at hget
    cases hget
  | @create creation made named free made' =>
    rw [get?_setTable] at hget
    split at hget
    case isTrue hname =>
      cases hget
      exact ⟨creation, rfl, by rw [hname, named], made'⟩
    case isFalse hne =>
      rw [hnone] at hget
      cases hget
  | look found => exact (hkept hget (table_eq_ok_iff.1 found) rfl).elim
  | put onItems found stored => exact (hkept hget (table_eq_ok_iff.1 found) rfl).elim
  | delete onItems key found => exact (hkept hget (table_eq_ok_iff.1 found) rfl).elim

/-- A look at a table finds it. -/
theorem looksAt_of_none (h : store.Change request after)
    (hnone : store.tables.get? name = none) : request.looksAt name = false := by
  cases h with
  | look found =>
    rw [Request.looksAt, beq_eq_false_iff_ne]
    rintro rfl
    rw [table_eq_ok_iff.1 found] at hnone
    cases hnone
  | list | create => rfl
  | read onItems | put onItems | delete onItems => exact Request.looksAt_of_isOnItems onItems name

theorem isAscending (h : store.Change request after) (hascending : store.tables.IsAscending) :
    after.tables.IsAscending := by
  cases h with
  | list | read => exact hascending
  | create | look | put | delete => exact hascending.insert

end Change

theorem Reaches.isAscending (h : store.Reaches after) (hascending : store.tables.IsAscending) :
    after.tables.IsAscending := by
  induction h with
  | refl => exact hascending
  | step _ answered ih => exact (change_of_answer answered).isAscending ih

/-- Whether every table of a store is there in another one, and no further from being active. -/
structure Advances (store after : MemoryStore) : Prop where
  tables : ∀ {name table}, store.tables.get? name = some table →
    ∃ later, after.tables.get? name = some later ∧ later.pendingPolls ≤ table.pendingPolls

namespace Advances

theorem refl (store : MemoryStore) : store.Advances store where
  tables hget := ⟨_, hget, Nat.le_refl _⟩

theorem trans {middle : MemoryStore} (h : store.Advances middle) (h' : middle.Advances after) :
    store.Advances after where
  tables hget := by
    obtain ⟨later, hlater, hpolls⟩ := h.tables hget
    obtain ⟨last, hlast, hpolls'⟩ := h'.tables hlater
    exact ⟨last, hlast, Nat.le_trans hpolls' hpolls⟩

theorem contains (h : store.Advances after) (hname : store.tables.contains name) :
    after.tables.contains name := by
  obtain ⟨table, hget⟩ := Option.isSome_iff_exists.1 hname
  obtain ⟨later, hlater, -⟩ := h.tables hget
  exact Option.isSome_iff_exists.2 ⟨later, hlater⟩

end Advances

theorem Change.advances (h : store.Change request after) (hsound : store.IsSound) :
    store.Advances after where
  tables hget := by
    obtain ⟨storage, -, -, hafter⟩ := h.get?_of_some hsound hget
    exact ⟨_, hafter, Nat.sub_le ..⟩

/-! ## Pages of names -/

/-- Every page is granted. -/
theorem exists_listTables (store : MemoryStore) (startAfter : Option String) :
    ∃ page, store.listTables { startAfter } = .ok page := ⟨_, rfl⟩

/-- The names of a page are those of tables. -/
theorem contains_of_listTables {startAfter : Option String} {page : TableNames}
    (h : store.listTables { startAfter } = .ok page) :
    ∀ name ∈ page.names, store.tables.contains name := by
  intro name hname
  cases h
  have hkeys : name ∈ store.tables.keys.filter _ := List.mem_of_mem_take hname
  exact OrderedMap.contains_iff.2 (List.mem_filter.1 hkeys).1

/-- A sorted list is cut after as many elements as are wanted. What is left out is greater than the
last one of these. -/
theorem mem_take_of_le_last {names : List String} {most : Nat} (hsorted : names.Pairwise (· < ·))
    (hmost : 1 ≤ most) (hname : name ∈ names)
    (hlast : ∀ last ∈ if most < names.length then (names.take most).getLast? else none,
      name ≤ last) : name ∈ names.take most := by
  by_cases hlength : most < names.length
  · have hne : names.take most ≠ [] := by
      intro hnil
      have hlen := congrArg List.length hnil
      simp only [List.length_take, List.length_nil] at hlen
      omega
    have hle : name ≤ (names.take most).getLast hne :=
      hlast _ (by simp [hlength, List.getLast?_eq_some_getLast hne])
    rw [← List.take_append_drop most names] at hsorted hname
    obtain hmem | hmem := List.mem_append.1 hname
    · exact hmem
    · have hlt := (List.pairwise_append.1 hsorted).2.2 _ (List.getLast_mem hne) _ hmem
      exact absurd hlt (String.not_lt.2 hle)
  · rwa [List.take_of_length_le (by omega)]

/-- A page misses no table between the name that it starts after and the last one of its own. -/
theorem mem_of_listTables {startAfter : Option String} {page : TableNames}
    (h : store.listTables { startAfter } = .ok page) (hascending : store.tables.IsAscending)
    (hsize : 1 ≤ store.config.namesPageSize) (hname : store.tables.contains name)
    (hstart : ∀ start ∈ startAfter, start < name) (hlast : ∀ last ∈ page.last, name ≤ last) :
    name ∈ page.names := by
  cases h
  have hkeys : store.tables.keys.Pairwise (· < ·) := by
    refine List.pairwise_map.2 (hascending.imp ?_)
    intro a b hab
    exact compareOfLessAndEq_eq_lt.1 hab
  refine mem_take_of_le_last (hkeys.filter _) hsize ?_ hlast
  refine List.mem_filter.2 ⟨OrderedMap.contains_iff.1 hname, ?_⟩
  cases startAfter with
  | none => rfl
  | some start => simpa using hstart start rfl

/-- The names of all tables after a start. -/
def namesAfter (store : MemoryStore) (startAfter : Option String) : List String :=
  store.tables.keys.filter fun name => startAfter.all fun start => start < name

/-- A page that is not the last one leaves fewer names to be read. -/
theorem length_namesAfter_lt {startAfter : Option String} {page : TableNames}
    (h : store.listTables { startAfter } = .ok page) {last : String} (hlast : page.last = some last) :
    (store.namesAfter (some last)).length < (store.namesAfter startAfter).length := by
  have hmem : last ∈ store.namesAfter startAfter := by
    cases h
    simp only at hlast
    split at hlast
    case isTrue => exact List.mem_of_mem_take (List.mem_of_getLast? hlast)
    case isFalse => cases hlast
  have hafter := (List.mem_filter.1 hmem).2
  have hfilter : store.namesAfter (some last) =
      (store.namesAfter startAfter).filter (last < ·) := by
    unfold namesAfter
    rw [List.filter_filter]
    apply List.filter_congr
    intro name _
    cases startAfter with
    | none => simp
    | some start =>
      have hlt : start < last := of_decide_eq_true hafter
      show decide (last < name) = (decide (last < name) && decide (start < name))
      by_cases hname : last < name
      · rw [decide_eq_true hname, decide_eq_true (String.lt_trans hlt hname), Bool.and_self]
      · rw [decide_eq_false hname, Bool.false_and]
  rw [hfilter]
  exact List.length_filter_lt_length_iff_exists.2 ⟨last, hmem, by simp⟩

end MemoryStore

end KeyedStore
