import KeyedStore.Model.Registry
import KeyedStore.Proofs.Connector.Fetching
import KeyedStore.Proofs.Filter.Conditions
import KeyedStore.Proofs.Memory.Endings
import KeyedStore.Proofs.Plan.Agreement

/-!
# Indexed reads

A filter that selects a partition is read as a query, page by page, from the table or an index. What
it returns are the items that a scan of the whole table would keep, less those that are not in the
index.
-/
namespace KeyedStore

namespace Schema

variable {schema : Schema} {filter : Filter} {selection : Selection}

/-- A filter without conditions selects no partition. -/
theorem conditions_ne_nil_of_plan (h : schema.plan filter = .ok (.query selection)) :
    filter.conditions ≠ [] := by
  intro hnil
  obtain ⟨hquery, hhash⟩ := compileQuery_of_plan h
  rw [compileQuery, hnil] at hquery
  cases hquery
  cases hhash

end Schema

namespace Connector

open PageRequest

variable {schema : Schema} {filter : Filter} {selection : Selection} {store : MemoryStore}

/-- The pages of a query hold the items that have the keys which it reads by and for which all
conditions hold. -/
theorem mem_returnedItems_iff {turns : List Turn} (hsize : 1 ≤ store.config.pageSize)
    (hstore : store.IsSound) (hnodup : (filter.conditions.map (·.1)).Nodup)
    (hlist : ∀ c ∈ filter.conditions, ∀ values, c.2 ≠ .list values)
    (hquery : schema.compileQuery filter = .ok selection)
    (run : Run (.query (selection.toQuery schema.tableName)) store turns)
    (hsame : ∀ turn ∈ turns, turn.store = store) :
    ∃ table keys, store.table schema.tableName = .ok table ∧
      table.keySchemaFor selection.index = .ok keys ∧ (returnedItems turns).Nodup ∧
      ((∀ item ∈ table.storage.allItems, selection.Suits schema filter item) →
        ∀ item, item ∈ returnedItems turns ↔ item ∈ table.storage.allItems ∧
          (∀ name ∈ keys.names, item.contains name) ∧
          Filter.verdict schema item filter.conditions = .ok true) := by
  obtain ⟨table, access, htable, haccess, -, hcovering⟩ := run.exists_access hsize hstore
  obtain ⟨hitems, hmem⟩ := hcovering.mem_returnedItems_iff hstore htable haccess rfl hsame
  obtain ⟨keys, hkeys, hmatching⟩ :=
    Schema.matching_iff_of_compileQuery hnodup hlist hquery haccess
  exact ⟨table, keys, htable, hkeys, hitems, fun hsuits item =>
    (hmem item).trans (hmatching item (hsuits item))⟩

/-- A query and a scan of one filter agree. If the pages of a query can be read, fetching it
returns, each once, the stored items that have the key attributes of the table or index that it is
from and on which the filter of the scan is true. There must be no bare list among the conditions,
and the stored values must be comparable where the key condition compares them. The schema may be
any, and any requests may have filled the store. -/
theorem fetch_query_agrees_with_scan {config : MemoryConfig} {json : Json}
    (hsize : 1 ≤ config.pageSize) (hreached : (MemoryStore.empty config).Reaches store)
    (hdistinct : json.HasDistinctKeys) (hfilter : Filter.ofJson json = .ok filter)
    (hlist : ∀ c ∈ filter.conditions, ∀ values, c.2 ≠ .list values)
    (hplan : schema.plan filter = .ok (.query selection))
    (hpages : (query (selection.toQuery schema.tableName)).Succeeds store)
    (hsuits : ∀ table, store.table schema.tableName = .ok table →
      ∀ item ∈ table.storage.allItems, selection.Suits schema filter item) :
    ∃ items table keys scan text e,
      (Connector.local.fetch (.query selection) schema.tableName none).run.run store =
        (.ok items, store) ∧
      store.table schema.tableName = .ok table ∧ table.keySchemaFor selection.index = .ok keys ∧
      schema.compileScan filter = .ok scan ∧ scan.filter = some text ∧ Expr.parse text = .ok e ∧
      items.Nodup ∧ ∀ item, item ∈ items ↔ item ∈ table.storage.allItems ∧
        (∀ name ∈ keys.names, item.contains name) ∧ scan.bindings.evaluate item e = .ok true := by
  have hstore := hreached.isSound (MemoryStore.isSound_empty config)
  have hconfig : store.config = config :=
    (hreached.keeps (MemoryStore.isSound_empty config)).config
  rw [← hconfig] at hsize
  obtain ⟨turns, run, hsame⟩ := (succeeds_iff_exists_run hsize hstore).1 hpages
  have hnodup := Filter.nodup_of_ofJson hdistinct hfilter
  obtain ⟨hquery, -⟩ := Schema.compileQuery_of_plan hplan
  obtain ⟨table, keys, htable, hkeys, hitems, hmem⟩ :=
    mem_returnedItems_iff hsize hstore hnodup hlist hquery run hsame
  obtain ⟨scan, hscan⟩ := Schema.exists_compileScan hlist hquery
  obtain ⟨text, e, htext, hparse, heval⟩ :=
    Schema.exists_filter_of_compileScan hscan (Schema.conditions_ne_nil_of_plan hplan)
  have hfetch :=
    @fetch_of_run (.query selection) schema.tableName store turns hsize hstore run hsame
  refine ⟨returnedItems turns, table, keys, scan, text, e, hfetch, htable, hkeys, hscan, htext,
    hparse, hitems, fun item => ?_⟩
  rw [heval item]
  exact hmem (hsuits table htable) item

/-- The properties of tasks, with an index of those that have an owner and a date. -/
def taskProperties : Json := .obj [
  ("id", .obj [("type", .str "String"), ("keyType", .str "hash")]),
  ("owner", .obj [("type", .str "String"), ("index", .obj [("global",
    .obj [("name", .str "agenda"), ("rangeKey", .str "due"), ("project", .bool true)])])]),
  ("due", .str "Number")]

def tasks : Schema where
  name := "Task"
  tableName := "Task"
  hashKey := "id"
  rangeKey := none
  compositeKey := none
  separator := defaultSeparator
  generatesHash := false
  types := [("due", .number), ("id", .string), ("owner", .string)]
  localIndexes := []
  globalIndexes := [("owner", {
    name := "agenda"
    kind := .globalIndex
    hashKey := "owner"
    rangeKey := some "due"
    projection := .all
    throughput := some ⟨5, 10⟩ })]
  settings := {}

def task (id state : String) (due : Option String) : Item :=
  due.toList.map (fun due => ("due", .number due)) ++
    [("id", .string id), ("owner", .string "ann"), ("state", .string state)]

def taskStore : MemoryStore := (MemoryStore.empty { pageSize := 1 }).serve [
  .createTable tasks.createTable,
  .putItem { table := "Task", item := task "1" "open" (some "3") },
  .putItem { table := "Task", item := task "2" "open" none },
  .putItem { table := "Task", item := task "3" "open" (some "7") },
  .putItem { table := "Task", item := task "4" "done" (some "8") }]

def lateTasks : Filter where
  conditions := [("owner", .equals (.str "ann")), ("due", .operator .gt (.ofInt 5)),
    ("state", .equals (.str "open"))]

def lateSelection : Selection where
  index := some "agenda"
  hashCondition := some (.compare (.path "#O") .eq (.value ":owner"))
  rangeCondition := some (.compare (.path "#D") .gt (.value ":due"))
  filters := [.compare (.path "#S") .eq (.value ":state")]
  names := [("#D", "due"), ("#O", "owner"), ("#S", "state")]
  values := [(":due", .ofInt 5), (":owner", .str "ann"), (":state", .str "open")]

/-- The dates of tasks are numbers. -/
theorem suits_lateTasks : ∀ table, taskStore.table tasks.tableName = .ok table →
    ∀ item ∈ table.storage.allItems, lateSelection.Suits tasks lateTasks item := by
  have hdates : (taskStore.table "Task").toOption.all fun table =>
      table.storage.allItems.all fun item =>
        item.get? "due" ∈ [none, some (.number "3"), some (.number "7"), some (.number "8")] := by
    decide +kernel
  intro table htable item hitem c hc _ value hvalue
  have hall := of_all_toOption hdates htable
  have hdate := of_decide_eq_true (List.all_eq_true.1 hall item hitem)
  simp only [lateTasks, List.mem_cons, List.not_mem_nil, or_false] at hc
  rcases hc with rfl | rfl | rfl
  · intro a b _ hb
    cases hb
  · rw [hvalue] at hdate
    have hbound : IsPlainNumeral "5" := ⟨_, rfl, by decide⟩
    have hordered (text : String) (h : IsPlainNumeral text) :
        (AttributeValue.number text).AreOrdered (tasks.bound "due" (.ofInt 5)) := .number h hbound
    simp only [List.mem_cons, Option.some.injEq, reduceCtorEq, List.not_mem_nil, or_false,
      false_or] at hdate
    rcases hdate with rfl | rfl | rfl
    · exact hordered "3" ⟨_, rfl, by decide⟩
    · exact hordered "7" ⟨_, rfl, by decide⟩
    · exact hordered "8" ⟨_, rfl, by decide⟩
  · intro a b _ hb
    cases hb

/-- Late tasks are read from the index over two pages, and none without a date is among them. -/
theorem fetch_lateTasks :
    (do
      let definition ← ModelDefinition.ofJson "Task" taskProperties .null
      Registry.define [] definition) = .ok (tasks, [("Task", tasks)]) ∧
    tasks.plan lateTasks = .ok (.query lateSelection) ∧
    ∃ items, (Connector.local.fetch (.query lateSelection) "Task" none).run.run taskStore =
        (.ok items, taskStore) ∧ items.Nodup ∧ ∀ item ∈ items, item.contains "due" := by
  let request : PageRequest := .query (lateSelection.toQuery "Task")
  let key : Item := [("due", .number "7"), ("id", .string "3"), ("owner", .string "ann")]
  have hfirst : (request.answer taskStore).toOption.map (·.lastKey) = some (some key) := by
    decide +kernel
  have hsecond : ((request.after key).answer taskStore).toOption.map (·.lastKey) = some none := by
    decide +kernel
  obtain ⟨first, hfirst, hmore⟩ := Option.map_eq_some_iff.1 hfirst
  obtain ⟨second, hsecond, hlast⟩ := Option.map_eq_some_iff.1 hsecond
  have run : Run request taskStore [⟨taskStore, request, first⟩,
      ⟨taskStore, request.after key, second⟩] :=
    .next (toOption_eq_some_iff.1 hfirst) hmore .refl (.last (toOption_eq_some_iff.1 hsecond) hlast)
  have hdistinct : (Json.obj [("where", .obj [("owner", .str "ann"),
      ("due", .obj [("gt", .ofInt 5)]), ("state", .str "open")])]).HasDistinctKeys := by
    refine .obj (by decide) (List.forall_mem_singleton.2 (.obj (by decide) ?_))
    simp only [List.forall_mem_cons]
    exact ⟨.str _, .obj (by decide) (List.forall_mem_singleton.2 (.num _)), .str _, nofun⟩
  obtain ⟨items, table, keys, scan, text, e, hfetch, htable, hkeys, -, -, -, hnodup, hmem⟩ :=
    @fetch_query_agrees_with_scan tasks lateTasks lateSelection taskStore _ _ (by decide)
      ((MemoryStore.empty { pageSize := 1 }).reaches_serve _) hdistinct rfl
      (by simp [lateTasks]) rfl (run.succeeds (by simp)) suits_lateTasks
  have hdue : (taskStore.table "Task").toOption.all fun table =>
      (table.keySchemaFor (some "agenda")).toOption.all fun keys => "due" ∈ keys.names := by
    decide +kernel
  refine ⟨rfl, rfl, items, hfetch, hnodup, fun item hitem => ((hmem item).1 hitem).2.1 "due" ?_⟩
  have hagenda := of_all_toOption hdue htable
  have hnamed := of_all_toOption hagenda hkeys
  exact of_decide_eq_true hnamed

end Connector

end KeyedStore
