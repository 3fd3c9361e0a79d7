import KeyedStore.Proofs.Memory.Answers
import KeyedStore.Proofs.Memory.Tables

/-!
# Queries of indexes

A store checks the types of the key attributes of a table only, so an item may have anything in the
place of the key attributes of an index. A query passes over such items with one exception: where it
leaves the range open, it asks no more than that the range attribute is there.
-/
namespace KeyedStore

namespace MemoryTable

variable {table other : MemoryTable} {index : String}

/-- Whether a table has an index of a name. -/
def Declares (table : MemoryTable) (index : String) : Prop :=
  index ∈ table.globalIndexes.map (·.name) ∨ index ∈ table.localIndexes.map (·.name)

instance : Decidable (table.Declares index) := inferInstanceAs (Decidable (_ ∨ _))

/-- The key elements of all indexes. -/
def indexElements (table : MemoryTable) : List (List KeyElement) :=
  table.globalIndexes.map (·.keyElements) ++ table.localIndexes.map (·.keyElements)

/-- Whether the key attributes of all indexes are defined. -/
def DefinesIndexes (table : MemoryTable) : Prop :=
  ∀ elements ∈ table.indexElements,
    ∃ keys, KeySchema.ofElements elements table.definitions = .ok keys

/-- A table is made only if the key attributes of its indexes are defined. -/
theorem definesIndexes_of_ofRequest {request : CreateTable} {polls : Nat}
    (h : ofRequest request polls = .ok table) : table.DefinesIndexes := by
  obtain ⟨keySchema, -, h⟩ := bind_eq_ok_iff.1 h
  obtain ⟨_, hindexes, h⟩ := bind_eq_ok_iff.1 h
  cases h
  exact forM_void_eq_ok_iff.1 hindexes

/-- An index that is declared has a key. -/
theorem DefinesIndexes.exists_indexSchema (h : table.DefinesIndexes)
    (hindex : table.Declares index) : ∃ keys, table.indexSchema index = .ok keys := by
  obtain ⟨elements, hmem, helements⟩ : ∃ elements ∈ table.indexElements,
      ((table.globalIndexes.find? (·.name == index)).map (·.keyElements)).or
        ((table.localIndexes.find? (·.name == index)).map (·.keyElements)) = some elements := by
    cases hglobal : table.globalIndexes.find? (·.name == index) with
    | some found =>
      have hfound := List.mem_of_find?_eq_some hglobal
      exact ⟨found.keyElements, List.mem_append_left _ (List.mem_map_of_mem hfound), rfl⟩
    | none =>
      cases hlocal : table.localIndexes.find? (·.name == index) with
      | some found =>
        have hfound := List.mem_of_find?_eq_some hlocal
        exact ⟨found.keyElements, List.mem_append_right _ (List.mem_map_of_mem hfound), rfl⟩
      | none =>
        exfalso
        rcases hindex with hindex | hindex
        · obtain ⟨declared, hdeclared, rfl⟩ := List.mem_map.1 hindex
          simpa using List.find?_eq_none.1 hglobal declared hdeclared
        · obtain ⟨declared, hdeclared, rfl⟩ := List.mem_map.1 hindex
          simpa using List.find?_eq_none.1 hlocal declared hdeclared
  obtain ⟨keys, hkeys⟩ := h elements hmem
  refine ⟨keys, ?_⟩
  unfold indexSchema
  rw [helements]
  exact mapError_eq_ok_iff.2 hkeys

end MemoryTable

namespace MemoryStore

variable {store : MemoryStore} {config : MemoryConfig} {name : String} {table : MemoryTable}

/-- Every table of a store that requests lead to defines the key attributes of its indexes. -/
theorem Reaches.definesIndexes (h : (empty config).Reaches store)
    (hget : store.tables.get? name = some table) : table.DefinesIndexes := by
  induction h generalizing table with
  | refl => cases hget
  | @step middle after request answer reached answered ih =>
    have hsound := reached.isSound (isSound_empty config)
    have hchange := change_of_answer answered
    cases hmiddle : middle.tables.get? name with
    | none =>
      obtain ⟨creation, -, -, hmade⟩ := hchange.creation_of_get? hsound hmiddle hget
      exact MemoryTable.definesIndexes_of_ofRequest hmade
    | some old =>
      obtain ⟨storage, -, -, hafter⟩ := hchange.get?_of_some hsound hmiddle
      rw [hget] at hafter
      cases hafter
      exact show old.DefinesIndexes from ih hmiddle

end MemoryStore

namespace Reading

variable {reading : Reading} {items : List Item} {item : Item} {own : PrimaryKey}

/-- An item of a table has a cursor if its range value in the index, where it has one, is a key
value. -/
theorem exists_cursor_iff (hown : reading.keys.keyOf item = .ok own) :
    (∃ x, reading.cursor item = .ok x) ↔
      ∀ key, reading.indexSort = some key → item.contains key.name → (key.value? item).isSome := by
  unfold cursor Cursor.ofItem
  simp only [hown, OrderedMap.contains, KeyAttribute.value?]
  cases hindex : reading.indexSort with
  | none => simp
  | some key =>
    cases hvalue : item.get? key.name with
    | none => simp [hvalue]
    | some value =>
      cases hkey : KeyValue.ofAttribute key.name value <;>
        simp [hvalue, hkey, Functor.map, Except.map, Except.toOption]

/-- A page from the start is cut exactly if all items have cursors. -/
theorem exists_page_iff (hstart : reading.startKey = []) :
    (∃ page, reading.page items = .ok page) ↔ ∀ item ∈ items, ∃ x, reading.cursor item = .ok x := by
  constructor
  · rintro ⟨page, hpage⟩ item hitem
    obtain ⟨located, hlocated, -⟩ := bind_eq_ok_iff.1 hpage
    obtain ⟨hitems, hcursors⟩ := locate_eq_ok hlocated
    obtain ⟨entry, hentry, rfl⟩ := List.mem_map.1 (hitems ▸ hitem)
    exact ⟨entry.1, hcursors entry hentry⟩
  · exact fun h => exists_page h (.inl hstart)

end Reading

/-- Without a filter, a page is answered exactly if it can be cut. -/
theorem Access.exists_answer_iff {access : Access} {table : MemoryTable}
    (hfilter : access.filter = none) : (∃ page, access.answer table = .ok page) ↔
      ∃ page, access.reading.page (access.candidates table) = .ok page := by
  unfold answer
  rw [hfilter]
  constructor
  · rintro ⟨page, hpage⟩
    obtain ⟨cut, hcut, -⟩ := bind_eq_ok_iff.1 hpage
    exact ⟨cut, mapError_eq_ok_iff.1 hcut⟩
  · rintro ⟨cut, hcut⟩
    exact ⟨_, bind_eq_ok_iff.2 ⟨cut, mapError_eq_ok_iff.2 hcut, rfl⟩⟩

namespace KeyCondition

variable {condition : KeyCondition} {keys : KeySchema} {item : Item}

/-- Whether an item breaks a query: the condition leaves the range open, and the item has the hash
value and, in the place of the range, a value that is no key value. -/
structure IsBrokenBy (condition : KeyCondition) (keys : KeySchema) (item : Item) : Prop where
  leavesOpen : condition.sort = none
  hash : (keys.partition.value? item).any (·.same condition.partition)
  range : ∃ key, keys.sort = some key ∧ item.contains key.name ∧ key.value? item = none

/-- An item that meets the condition has a hash value. -/
theorem isSome_partition_of_accepts (h : condition.accepts keys item) :
    (keys.partition.value? item).isSome := by
  obtain ⟨value, hvalue, -⟩ := (Option.any_eq_true _ _).1 (Bool.and_eq_true_iff.1 h).1
  simp [hvalue]

/-- An item that meets the condition has a range value, unless it breaks the query. -/
theorem isBrokenBy_iff : condition.IsBrokenBy keys item ↔
    condition.accepts keys item ∧ ∃ key, keys.sort = some key ∧ key.value? item = none := by
  constructor
  · rintro ⟨hopen, hhash, key, hkey, hcontains, hvalue⟩
    refine ⟨?_, key, hkey, hvalue⟩
    unfold accepts
    simp [hhash, hkey, hopen, hcontains]
  · rintro ⟨haccepts, key, hkey, hvalue⟩
    obtain ⟨hhash, hrange⟩ := Bool.and_eq_true_iff.1 haccepts
    cases hsort : condition.sort with
    | none => exact ⟨hsort, hhash, key, hkey, by simpa [hkey, hsort] using hrange, hvalue⟩
    | some sort => simp [hkey, hsort, hvalue] at hrange

end KeyCondition

namespace MemoryStore

variable {store : MemoryStore} {config : MemoryConfig} {table : MemoryTable} {request : Query}
  {keys : KeySchema} {condition : KeyCondition} {limit : Nat} {page : ItemPage}

/-- A query from the start of a table or an index is answered exactly if no item breaks it. -/
theorem exists_candidates_page_iff (hstorage : table.storage.IsSound)
    (hstart : request.startKey = [])
    (hsound : (Access.ofQuery table request limit keys none condition).IsSound table) :
    let access := Access.ofQuery table request limit keys none condition
    (∃ page, access.reading.page (access.candidates table) = .ok page) ↔
      request.index = none ∨ ∀ item ∈ table.storage.allItems, ¬condition.IsBrokenBy keys item := by
  intro access
  have hcandidates {item : Item} : item ∈ access.candidates table ↔
      item ∈ table.storage.allItems ∧ condition.accepts keys item :=
    (hsound.mem_candidates hstorage).trans List.mem_filter
  have hcursor {item : Item} (hitem : item ∈ table.storage.allItems) :
      (∃ x, access.reading.cursor item = .ok x) ↔ ∀ key, access.reading.indexSort = some key →
        item.contains key.name → (key.value? item).isSome := by
    obtain ⟨own, hown⟩ := hstorage.exists_keyOf hitem
    exact Reading.exists_cursor_iff hown
  rw [Reading.exists_page_iff hstart]
  cases hindex : request.index with
  | none =>
    have hsort : access.reading.indexSort = none := by
      simp [access, Access.ofQuery, Reading.indexSort, hindex]
    simp only [true_or, iff_true]
    intro item hitem
    simp [hcursor (hcandidates.1 hitem).1, hsort]
  | some index =>
    have hsort : access.reading.indexSort = keys.sort := by
      simp [access, Access.ofQuery, Reading.indexSort, hindex]
    simp only [reduceCtorEq, false_or]
    constructor
    · intro h item hitem hbroken
      obtain ⟨haccepts, -⟩ := KeyCondition.isBrokenBy_iff.1 hbroken
      obtain ⟨key, hkey, hcontains, hvalue⟩ := hbroken.range
      have hread := (hcursor hitem).1 (h item (hcandidates.2 ⟨hitem, haccepts⟩))
      simpa [hvalue] using hread key (hsort.trans hkey) hcontains
    · intro h item hitem
      obtain ⟨hmem, haccepts⟩ := hcandidates.1 hitem
      refine (hcursor hmem).2 fun key hkey _ => ?_
      by_contra hvalue
      exact h item hmem (KeyCondition.isBrokenBy_iff.2
        ⟨haccepts, key, hsort.symm.trans hkey, by simpa using hvalue⟩)

/-- The items that a query of an index returns have key values in the place of the key attributes,
if no item breaks it. So do those of a query of the table. -/
theorem isSome_value?_of_accepts {item : Item} (hstorage : table.storage.IsSound)
    (hkeys : table.keySchemaFor request.index = .ok keys)
    (hbreaks : request.index = none ∨
      ∀ item ∈ table.storage.allItems, ¬condition.IsBrokenBy keys item)
    (hitem : item ∈ table.storage.allItems) (haccepts : condition.accepts keys item) :
    ∀ key ∈ keys.attributes, (key.value? item).isSome := by
  intro key hkey
  rcases hbreaks with hindex | hbreaks
  · rw [hindex] at hkeys
    cases hkeys
    obtain ⟨own, hown⟩ := hstorage.exists_keyOf hitem
    obtain ⟨stored, value, hstored, hvalue⟩ :=
      KeySchema.exists_ofAttribute_of_keyOf hown (List.mem_map_of_mem hkey)
    simp [KeyAttribute.value?, hstored, hvalue, Except.toOption]
  · rcases List.mem_cons.1 hkey with rfl | hkey
    · exact KeyCondition.isSome_partition_of_accepts haccepts
    · by_contra hvalue
      exact hbreaks item hitem (KeyCondition.isBrokenBy_iff.2
        ⟨haccepts, key, Option.mem_toList.1 hkey, by simpa using hvalue⟩)

/-- A limit that is valid is one for the pages. -/
theorem exists_pageLimit {limit : Option Int} (h : ∀ n ∈ limit, 0 < n) (most : Nat) :
    ∃ n, pageLimit limit most = .ok n := by
  cases limit with
  | none => exact ⟨most, rfl⟩
  | some n => exact ⟨min n.toNat most, if_neg (Int.not_le.2 (h n rfl))⟩

/-- A query of a table or one of its indexes from the start, whose key condition can be resolved, is
answered exactly if no item breaks it; a query of the table itself always is. All items of the page
have key values in the place of the key attributes. -/
theorem query_succeeds_iff (hreaches : (empty config).Reaches store)
    (htable : store.table request.table = .ok table)
    (hindex : ∀ index ∈ request.index, table.Declares index)
    (hlimit : ∀ limit ∈ request.limit, 0 < limit) (hfilter : request.filter = none)
    (hstart : request.startKey = []) :
    ∃ keys, table.keySchemaFor request.index = .ok keys ∧
      ∀ text expr condition, request.keyCondition = some text → Expr.parse text = .ok expr →
        KeyCondition.resolve keys ⟨request.names, request.values⟩ expr = .ok condition →
        ((∃ page, store.query request = .ok page) ↔ request.index = none ∨
          ∀ item ∈ table.storage.allItems, ¬condition.IsBrokenBy keys item) ∧
        ∀ page, store.query request = .ok page →
          ∀ item ∈ page.items, ∀ key ∈ keys.attributes, (key.value? item).isSome := by
  have hsound := hreaches.isSound (isSound_empty config)
  have hstorage := hsound.storage_of_table htable
  obtain ⟨keys, hkeys⟩ : ∃ keys, table.keySchemaFor request.index = .ok keys := by
    cases hname : request.index with
    | none => exact ⟨_, rfl⟩
    | some index =>
      exact (hreaches.definesIndexes (table_eq_ok_iff.1 htable)).exists_indexSchema
        (hindex index (by simp [hname]))
  obtain ⟨limit, hlimit⟩ := exists_pageLimit hlimit store.config.pageSize
  refine ⟨keys, hkeys, fun text expr condition htext hparse hresolve => ?_⟩
  have hparsed : parseOptional request.keyCondition = .ok (some expr) := by
    rw [htext]
    exact mapError_eq_ok_iff.2 (map_eq_ok_iff.2 ⟨expr, hparse, rfl⟩)
  let access := Access.ofQuery table request limit keys none condition
  have haccess : (PageRequest.query request).access table store.config.pageSize = .ok access :=
    PageRequest.access_query_eq_ok_iff.2 ⟨limit, keys, expr, none, condition, hlimit, hkeys,
      hparsed, by rw [hfilter]; rfl, hresolve, rfl⟩
  have hanswer : store.query request = access.answer table := by
    refine (PageRequest.answer_eq (.query request) store).trans ?_
    rw [show store.table (PageRequest.query request).table = .ok table from htable, ok_bind,
      haccess, ok_bind]
  have hiff : (∃ page, store.query request = .ok page) ↔ request.index = none ∨
      ∀ item ∈ table.storage.allItems, ¬condition.IsBrokenBy keys item := by
    rw [hanswer, Access.exists_answer_iff rfl]
    exact exists_candidates_page_iff hstorage hstart (PageRequest.isSound_of_access haccess)
  refine ⟨hiff, fun page hpage item hitem => ?_⟩
  obtain ⟨found, access', rest, hfound, haccess', hcut⟩ :=
    @PageRequest.answer_eq_ok (.query request) _ _ hsound hpage
  obtain rfl : table = found := Except.ok.inj (htable.symm.trans hfound)
  obtain rfl : access = access' := Except.ok.inj (haccess.symm.trans haccess')
  rw [hcut.items] at hitem
  obtain ⟨hmatching, -⟩ := (hcut.mem_iff item).1
    (List.mem_append_left rest (List.mem_filter.1 hitem).1)
  obtain ⟨hmem, haccepts⟩ := List.mem_filter.1 hmatching
  exact isSome_value?_of_accepts hstorage hkeys (hiff.1 ⟨page, hpage⟩) hmem haccepts

def visits : CreateTable where
  table := "visits"
  keyElements := [⟨"id", .hash⟩]
  definitions := [⟨"due", .number⟩, ⟨"id", .string⟩, ⟨"owner", .string⟩]
  globalIndexes := [{
    name := "agenda"
    keyElements := [⟨"owner", .hash⟩, ⟨"due", .range⟩]
    projection := ⟨some .all, []⟩
    throughput := none }]

def visit (id : String) (due : Option AttributeValue) : Request :=
  .putItem { table := "visits", item :=
    due.toList.map (fun due => ("due", due)) ++ [("id", .string id), ("owner", .string "ann")] }

def visitStore (due : Option AttributeValue) : MemoryStore :=
  (empty {}).serve [.createTable visits, visit "1" (some (.number "3")), visit "2" due]

def agenda : Query where
  table := "visits"
  index := some "agenda"
  keyCondition := some "owner = :owner"
  values := [(":owner", .string "ann")]

def agendaKeys : KeySchema := ⟨⟨"owner", .string⟩, some ⟨"due", .number⟩⟩

/-- The visits are asked for by their owner only. -/
theorem resolve_agenda : ∃ expr, Expr.parse "owner = :owner" = .ok expr ∧
    KeyCondition.resolve agendaKeys ⟨agenda.names, agenda.values⟩ expr =
      .ok ⟨.string "ann", none⟩ :=
  ⟨.compare (.path "owner") .eq (.value ":owner"), by decide +kernel, rfl⟩

/-- A visit without a date is passed over. -/
theorem query_agenda_succeeds : ∃ page, (visitStore none).query agenda = .ok page ∧
    ∀ item ∈ page.items, ∀ key ∈ agendaKeys.attributes, (key.value? item).isSome := by
  have hlayout : ((visitStore none).table agenda.table).toOption.any fun table =>
      table.Declares "agenda" && (table.keySchemaFor agenda.index).toOption = some agendaKeys &&
        table.storage.allItems.all fun item => !item.contains "due" ||
          ((⟨"due", .number⟩ : KeyAttribute).value? item).isSome := by
    decide +kernel
  obtain ⟨table, htable, hlayout⟩ := (Option.any_eq_true _ _).1 hlayout
  simp only [Bool.and_eq_true, decide_eq_true_eq] at hlayout
  obtain ⟨⟨hdeclares, hagenda⟩, hitems⟩ := hlayout
  obtain ⟨expr, hparse, hresolve⟩ := resolve_agenda
  have hagenda := toOption_eq_some_iff.1 hagenda
  obtain ⟨keys, hkeys, hquery⟩ := @query_succeeds_iff (visitStore none) {} table agenda
    (reaches_serve _ _) (toOption_eq_some_iff.1 htable)
    (fun index hindex => Option.mem_some.1 hindex ▸ hdeclares) nofun rfl rfl
  obtain rfl : agendaKeys = keys := Except.ok.inj (hagenda.symm.trans hkeys)
  obtain ⟨hiff, hpage⟩ := hquery _ expr _ rfl hparse hresolve
  obtain ⟨page, hok⟩ := hiff.2 (.inr fun item hitem hbroken => by
    obtain ⟨key, hkey, hcontains, hvalue⟩ := hbroken.range
    cases hkey
    have hall := List.all_eq_true.1 hitems item hitem
    simp [hcontains, hvalue] at hall)
  exact ⟨page, hok, hpage page hok⟩

/-- A truth value in the place of a date makes every query of its owner fail, though the table and
both visits were accepted. -/
theorem query_agenda_fails : ∃ store table keys expr condition,
    (empty {}).Reaches store ∧ store.table agenda.table = .ok table ∧
    table.storage.itemCount = 2 ∧ table.Declares "agenda" ∧
    table.keySchemaFor agenda.index = .ok keys ∧ Expr.parse "owner = :owner" = .ok expr ∧
    KeyCondition.resolve keys ⟨agenda.names, agenda.values⟩ expr = .ok condition ∧
    store.query agenda = .error (.validation
      "Type mismatch for key due: expected S, N, or B, got BOOL") := by
  have hlayout : ((visitStore (some (.bool true))).table agenda.table).toOption.any fun table =>
      table.storage.itemCount = 2 && table.Declares "agenda" &&
        (table.keySchemaFor agenda.index).toOption = some agendaKeys := by
    decide +kernel
  have hquery : ((visitStore (some (.bool true))).query agenda).map (·.items.length) =
      .error (.validation "Type mismatch for key due: expected S, N, or B, got BOOL") := by
    decide +kernel
  obtain ⟨table, htable, hlayout⟩ := (Option.any_eq_true _ _).1 hlayout
  simp only [Bool.and_eq_true, decide_eq_true_eq] at hlayout
  obtain ⟨⟨hcount, hdeclares⟩, hagenda⟩ := hlayout
  obtain ⟨expr, hparse, hresolve⟩ := resolve_agenda
  refine ⟨_, table, agendaKeys, expr, _, reaches_serve _ _, toOption_eq_some_iff.1 htable, hcount,
    hdeclares, toOption_eq_some_iff.1 hagenda, hparse, hresolve, ?_⟩
  exact map_eq_error_iff.1 hquery

end MemoryStore

end KeyedStore
