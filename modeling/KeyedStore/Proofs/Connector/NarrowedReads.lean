import KeyedStore.Proofs.Connector.ReindexedReads
import KeyedStore.Proofs.Plan.AddedConditions

/-!
# Narrowed reads

A condition that is added to the filter of a query only drops records from what the query finds, as
long as the query uses the other conditions as before. Those that it may use in another way are on
the range key of a global index of which the added condition restricts the hash key.
-/
namespace KeyedStore

open PageRequest

/-- Whether a query may use a condition in another way for an item once one more attribute is
restricted. The condition is on the range key of a global index by that attribute; and it is a bare
list of two that is a set so far, or it compares, as a key, a value that is not comparable. -/
def Selection.Varies (selection : Selection) (schema : Schema) (filter : Filter) (attr : String)
    (item : Item) (c : String × Condition) : Prop :=
  schema.HasGlobalIndex attr c.1 ∧
    ((∃ first last, c.2 = .list [first, last] ∧ schema.settle filter c = .inSet [first, last]) ∨
      selection.IsKeyedBy c.1 ∧
        ¬(schema.settle filter c).restriction.ComparesKeys schema c.1 item)

/-- The attribute and the value that select the partition which a query reads. -/
def Selection.partition? (selection : Selection) : Option (String × Json) :=
  match selection.hashCondition with
  | some (.compare path _ operand) => do
    let name ← selection.placeholders.attribute? path
    return (name, ← selection.placeholders.value? operand)
  | _ => none

namespace Connector

variable {schema : Schema} {filter filter' : Filter} {selection selection' : Selection}
  {added : String × Condition} {store after after' : MemoryStore} {table : MemoryTable}
  {keys keys' : KeySchema} {items items' : List Item} {records records' : List Record}

/-- What a query finds with an added condition it finds without it, if the conditions hold that it
may use in another way. -/
theorem mem_iff_of_reads (hsound : schema.HasSoundIndexes)
    (hnodup : (filter.conditions.map (·.1)).Nodup) (hnodup' : (filter'.conditions.map (·.1)).Nodup)
    (hadded : filter'.conditions.Perm (added :: filter.conditions))
    (hplan : schema.plan filter = .ok (.query selection))
    (hplan' : schema.plan filter' = .ok (.query selection'))
    (hindex : selection.index = selection'.index)
    (hreads : (Plan.query selection).Reads schema (schema.settled filter) table keys items)
    (hreads' : (Plan.query selection').Reads schema (schema.settled filter') table keys' items')
    {item : Item} (hitem : item ∈ items') :
    item ∈ items ↔ ∀ c ∈ filter.conditions, selection.Varies schema filter added.1 item c →
      selection.Holds schema item (c.1, schema.settle filter c) := by
  obtain ⟨hstored, hnames, hall⟩ := (hreads'.mem_iff item).1 hitem
  have hkeys : keys = keys' := Except.ok.inj
    (hreads.keySchemaFor.symm.trans ((congrArg table.keySchemaFor hindex).trans
      hreads'.keySchemaFor))
  subst hkeys
  rw [Schema.forall_mem_settled] at hall
  rw [hreads.mem_iff, and_iff_right hstored, and_iff_right hnames, Schema.forall_mem_settled]
  refine ⟨fun h c hc _ => h c hc, fun h c hc => ?_⟩
  by_cases hvaries : selection.Varies schema filter added.1 item c
  · exact h c hc hvaries
  · refine Schema.holds_of_added hsound hnodup hnodup' hadded hplan hplan' hindex hc ?_ ?_
      (hall c (hadded.mem_iff.2 (List.mem_cons_of_mem _ hc)))
    · exact fun hranged first last hlist hset => hvaries ⟨hranged, .inl ⟨first, last, hlist, hset⟩⟩
    · intro hranged hkeyed
      refine hreads.keyHolds_iff item _ (List.mem_map_of_mem hc) hkeyed ?_
      by_contra hdata
      exact hvaries ⟨hranged, .inr ⟨hkeyed, hdata⟩⟩

theorem mem_iff_of_fetch (hsound : schema.HasSoundIndexes) (hstore : store.IsSound)
    (hnodup : (filter.conditions.map (·.1)).Nodup) (hnodup' : (filter'.conditions.map (·.1)).Nodup)
    (hadded : filter'.conditions.Perm (added :: filter.conditions))
    (hplan : schema.plan filter = .ok (.query selection))
    (hplan' : schema.plan filter' = .ok (.query selection'))
    (hindex : selection.index = selection'.index)
    (hfetch : (Connector.local.fetch (.query selection) schema.tableName none).run.run store =
      (.ok items, after))
    (hfetch' : (Connector.local.fetch (.query selection') schema.tableName none).run.run store =
      (.ok items', after'))
    {item : Item} (hitem : item ∈ items') :
    (∃ table, store.table schema.tableName = .ok table ∧ item ∈ table.storage.allItems) ∧
      (item ∈ items ↔ ∀ c ∈ filter.conditions, selection.Varies schema filter added.1 item c →
        selection.Holds schema item (c.1, schema.settle filter c)) := by
  obtain ⟨turns, run, hsame, rfl⟩ := exists_run_of_fetch hstore hfetch
  obtain ⟨turns', run', hsame', rfl⟩ := exists_run_of_fetch hstore hfetch'
  rcases Nat.eq_zero_or_pos store.config.pageSize with hsize | hsize
  · rw [run'.returnedItems_eq_nil hsize hstore hsame'] at hitem
    cases hitem
  · have hlist (filter : Filter) : ∀ c ∈ (schema.settled filter).conditions,
        ∀ values, c.2 ≠ .list values :=
      Schema.forall_mem_settled.2 fun c _ => schema.settle_ne_list filter c
    obtain ⟨table, keys, htable, hreads⟩ := reads_of_run hsize hstore
      (Schema.nodup_settled hnodup) (hlist filter) (Schema.plan_settled hplan) run hsame
    obtain ⟨table', keys', htable', hreads'⟩ := reads_of_run hsize hstore
      (Schema.nodup_settled hnodup') (hlist filter') (Schema.plan_settled hplan') run' hsame'
    obtain rfl : table = table' := Except.ok.inj (htable.symm.trans htable')
    exact ⟨⟨table, htable, ((hreads'.mem_iff item).1 hitem).1⟩,
      mem_iff_of_reads hsound hnodup hnodup' hadded hplan hplan' hindex hreads hreads' hitem⟩

/-- Adding a condition narrows a query of the same index, but for conditions that the query may use
in another way then. What is read with the added condition is read without it exactly if those hold
as they are used without it. Where there are none for the items of the table, every record that is
found with the added condition is found without it. Any requests may have filled the store. -/
theorem all_narrows {definition : ModelDefinition} {registry registered : Registry}
    {config : MemoryConfig} {json json' : Json}
    (hdefine : registry.define definition = .ok (schema, registered))
    (hreached : (MemoryStore.empty config).Reaches store)
    (hdistinct : json.HasDistinctKeys) (hfilter : Filter.ofJson json = .ok filter)
    (hdistinct' : json'.HasDistinctKeys) (hfilter' : Filter.ofJson json' = .ok filter')
    (hadded : filter'.conditions.Perm (added :: filter.conditions))
    (hlimit : filter.limit = none) (hoffset : filter.offset = 0) (hmin : filter.minResults = none)
    (hlimit' : filter'.limit = none) (hoffset' : filter'.offset = 0)
    (hmin' : filter'.minResults = none)
    (hplan : schema.plan filter = .ok (.query selection))
    (hplan' : schema.plan filter' = .ok (.query selection'))
    (hindex : selection.index = selection'.index)
    (hall : (Connector.local.all schema filter).run.run store = (.ok records, after))
    (hall' : (Connector.local.all schema filter').run.run store = (.ok records', after')) :
    (∃ items items',
      (Connector.local.fetch (.query selection) schema.tableName none).run.run store =
        (.ok items, store) ∧
      (Connector.local.fetch (.query selection') schema.tableName none).run.run store =
        (.ok items', store) ∧
      records.Perm (items.map Item.toRecord) ∧ records'.Perm (items'.map Item.toRecord) ∧
      ∀ item ∈ items', item ∈ items ↔ ∀ c ∈ filter.conditions,
        selection.Varies schema filter added.1 item c →
          selection.Holds schema item (c.1, schema.settle filter c)) ∧
    ((∀ table, store.table schema.tableName = .ok table → ∀ item ∈ table.storage.allItems,
        ∀ c ∈ filter.conditions, ¬selection.Varies schema filter added.1 item c) →
      ∀ record ∈ records', record ∈ records) := by
  have hstore := hreached.isSound (MemoryStore.isSound_empty config)
  have hsound := ModelDefinition.hasSoundIndexes_of_resolve (Registry.resolve_of_define hdefine)
  have hnodup := Filter.nodup_of_ofJson hdistinct hfilter
  have hnodup' := Filter.nodup_of_ofJson hdistinct' hfilter'
  obtain ⟨_, items, hplanned, hfetch, hrecords⟩ := all_eq_ok hlimit hoffset hmin hall
  obtain ⟨_, items', hplanned', hfetch', hrecords'⟩ := all_eq_ok hlimit' hoffset' hmin' hall'
  obtain rfl := Except.ok.inj (hplan.symm.trans hplanned)
  obtain rfl := Except.ok.inj (hplan'.symm.trans hplanned')
  have hmem (item : Item) (hitem : item ∈ items') := mem_iff_of_fetch hsound hstore hnodup hnodup'
    hadded hplan hplan' hindex hfetch hfetch' hitem
  refine ⟨⟨items, items', hfetch, hfetch', hrecords, hrecords', fun item hitem =>
    (hmem item hitem).2⟩, fun hfree record hrecord => ?_⟩
  obtain ⟨item, hitem, rfl⟩ := List.mem_map.1 (hrecords'.mem_iff.1 hrecord)
  obtain ⟨⟨table, htable, hstored⟩, hiff⟩ := hmem item hitem
  have hkept : item ∈ items := hiff.2 fun c hc hvaries =>
    absurd hvaries (hfree table htable item hstored c hc)
  exact hrecords.mem_iff.2 (List.mem_map_of_mem hkept)

/-- The properties of shifts, with indexes of those of an owner and of those in a room by date. -/
def shiftProperties : Json := .obj [
  ("id", .obj [("type", .str "String"), ("keyType", .str "hash")]),
  ("owner", dated), ("room", dated), ("due", .str "Number")]
where
  /-- A text with an index by date. -/
  dated : Json := .obj [("type", .str "String"),
    ("index", .obj [("global", .obj [("rangeKey", .str "due")])])]

def shifts : Schema where
  name := "Shift"
  tableName := "Shift"
  hashKey := "id"
  rangeKey := none
  compositeKey := none
  separator := defaultSeparator
  generatesHash := false
  types := [("due", .number), ("id", .string), ("owner", .string), ("room", .string)]
  localIndexes := []
  globalIndexes := [("owner", choreIndex "owner" "due"), ("room", choreIndex "room" "due")]
  settings := {}

def shift (id owner room due : String) : Item :=
  [("due", .number due), ("id", .string id), ("owner", .string owner), ("room", .string room)]

def shiftStore (items : List Item) : MemoryStore := (MemoryStore.empty {}).serve <|
  .createTable shifts.createTable :: items.map fun item => .putItem { table := "Shift", item }

theorem reaches_shiftStore (items : List Item) :
    (MemoryStore.empty {}).Reaches (shiftStore items) :=
  MemoryStore.reaches_serve _ _

def foundShifts (items : List Item) (conditions : List (String × Condition)) :
    Except Interruption (List Record) × MemoryStore :=
  (Connector.local.all shifts { conditions }).run.run (shiftStore items)

/-- Records that have been counted have been found. -/
theorem exists_foundShifts {items : List Item} {conditions : List (String × Condition)} {n : Nat}
    (h : (foundShifts items conditions).1.map List.length = .ok n) :
    ∃ records after, foundShifts items conditions = (.ok records, after) ∧ records.length = n := by
  obtain ⟨records, hrecords, hlength⟩ := map_eq_ok_iff.1 h
  exact ⟨records, (foundShifts items conditions).2, Prod.ext hrecords rfl, hlength⟩

/-- Whether a query of shifts finds a record only with a condition that is added to others, though
it reads the same partition of the same index. -/
def AddsShifts (items : List Item) (conditions : Record) (added : String × Json) : Prop :=
  ∃ filter filter' condition selection selection' store records records' after after',
    (whereJson conditions).HasDistinctKeys ∧
    Filter.ofJson (whereJson conditions) = .ok filter ∧
    (whereJson (conditions ++ [added])).HasDistinctKeys ∧
    Filter.ofJson (whereJson (conditions ++ [added])) = .ok filter' ∧
    filter'.conditions.Perm ((added.1, condition) :: filter.conditions) ∧
    shifts.plan filter = .ok (.query selection) ∧ shifts.plan filter' = .ok (.query selection') ∧
    selection.index = selection'.index ∧ selection.partition? = selection'.partition? ∧
    (MemoryStore.empty {}).Reaches store ∧ store = shiftStore items ∧
    (Connector.local.all shifts filter).run.run store = (.ok records, after) ∧
    (Connector.local.all shifts filter').run.run store = (.ok records', after') ∧
    ∃ record ∈ records', record ∉ records

/-- Whether a filter with some conditions is planned as a query of one partition of an index. -/
def ReadsShifts (conditions : List (String × Condition)) (index : Option String)
    (partition : String × Json) : Prop :=
  ∃ selection, shifts.plan { conditions } = .ok (.query selection) ∧ selection.index = index ∧
    selection.partition? = some partition

/-- A record is found only with a condition that is added if none is found without it. -/
theorem addsShifts_of_length {conditions : Record} {added : String × Json}
    (known : List (String × Condition)) (condition : Condition) (index : Option String)
    (partition : String × Json) (hnodup : ((conditions ++ [added]).map (·.1)).Nodup)
    (hvalues : ∀ entry ∈ conditions ++ [added], entry.2.HasDistinctKeys)
    (hfilter : Filter.ofJson (whereJson conditions) = .ok { conditions := known })
    (hfilter' : Filter.ofJson (whereJson (conditions ++ [added])) =
      .ok { conditions := known ++ [(added.1, condition)] })
    (hread : ReadsShifts known index partition)
    (hread' : ReadsShifts (known ++ [(added.1, condition)]) index partition)
    (hnone : (foundShifts items known).1.map List.length = .ok 0)
    (hone : (foundShifts items (known ++ [(added.1, condition)])).1.map List.length = .ok 1) :
    AddsShifts items conditions added := by
  obtain ⟨selection, hplan, rfl, hpartition⟩ := hread
  obtain ⟨selection', hplan', hindex, hpartition'⟩ := hread'
  obtain ⟨records, after, hall, hzero⟩ := exists_foundShifts hnone
  obtain ⟨records', after', hall', hlength⟩ := exists_foundShifts hone
  obtain ⟨record, rfl⟩ := List.length_eq_one_iff.1 hlength
  obtain rfl := List.length_eq_zero_iff.1 hzero
  have hdistinct : (whereJson conditions).HasDistinctKeys :=
    hasDistinctKeys_whereJson (hnodup.sublist ((List.sublist_append_left _ _).map _))
      fun entry hentry => hvalues entry (List.mem_append_left _ hentry)
  exact ⟨_, _, condition, selection, selection', shiftStore items, _, _, _, _, hdistinct, hfilter,
    hasDistinctKeys_whereJson hnodup hvalues, hfilter', List.perm_append_singleton _ _, hplan,
    hplan', hindex.symm, hpartition.trans hpartition'.symm, reaches_shiftStore items, rfl, hall,
    hall', record, List.mem_singleton_self _, nofun⟩

theorem exists_shifts : ∃ definition,
    ModelDefinition.ofJson "Shift" shiftProperties .null = .ok definition ∧
      Registry.define [] definition = .ok (shifts, [("Shift", shifts)]) :=
  bind_eq_ok_iff.1 (show (do
    let definition ← ModelDefinition.ofJson "Shift" shiftProperties .null
    Registry.define [] definition) = .ok (shifts, [("Shift", shifts)]) from rfl)

/-- A condition that is added may bring records: a list of two dates is a set of dates as long as no
index by date can be used, and a range of dates then; and a date of minus zero comes before zero as
a key, but equals it as a value. -/
theorem shifts_added :
    (∃ definition, ModelDefinition.ofJson "Shift" shiftProperties .null = .ok definition ∧
      Registry.define [] definition = .ok (shifts, [("Shift", shifts)])) ∧
    AddsShifts [shift "1" "ann" "a" "3"]
      [("id", .str "1"), ("due", .arr [.ofInt 1, .ofInt 5])] ("owner", .str "ann") ∧
    AddsShifts [shift "1" "ann" "a" "-0.0"]
      [("owner", .str "ann"), ("due", .obj [("gte", .ofInt 0)])]
      ("room", .obj [("gte", .str "a")]) := by
  refine ⟨exists_shifts, ?_, ?_⟩
  · refine addsShifts_of_length [("id", .equals (.str "1")),
      ("due", .list [.ofInt 1, .ofInt 5])] (.equals (.str "ann")) none ("id", .str "1") (by decide)
      ?_ rfl rfl ⟨_, rfl, rfl, rfl⟩ ⟨_, rfl, rfl, rfl⟩ (by decide +kernel) (by decide +kernel)
    simp only [List.cons_append, List.nil_append, List.forall_mem_cons]
    refine ⟨.str _, .arr ?_, .str _, List.forall_mem_nil _⟩
    simp only [List.forall_mem_cons]
    exact ⟨.num _, .num _, List.forall_mem_nil _⟩
  · refine addsShifts_of_length [("owner", .equals (.str "ann")),
      ("due", .operator .gte (.ofInt 0))] (.operator .gte (.str "a")) (some "ownerGlobalIndex")
      ("owner", .str "ann") (by decide) ?_ rfl rfl ⟨_, rfl, rfl, rfl⟩ ⟨_, rfl, rfl, rfl⟩
      (by decide +kernel) (by decide +kernel)
    simp only [List.cons_append, List.nil_append, List.forall_mem_cons]
    exact ⟨.str _, .obj (by decide) (List.forall_mem_singleton.2 (.num _)),
      .obj (by decide) (List.forall_mem_singleton.2 (.str _)), List.forall_mem_nil _⟩

def annsShifts : List Item := [shift "1" "ann" "a" "3", shift "2" "ann" "b" "7"]

def datedShifts : List (String × Condition) :=
  [("owner", .equals (.str "ann")), ("due", .list [.ofInt 1, .ofInt 9])]

def placedShifts : List (String × Condition) :=
  datedShifts ++ [("room", .operator .gte (.str "b"))]

/-- The dates of shifts are numbers, so they are compared alike as keys and as values. -/
theorem not_varies_annsShifts {selection : Selection}
    (htable : (shiftStore annsShifts).table shifts.tableName = .ok table) :
    ∀ item ∈ table.storage.allItems, ∀ c ∈ datedShifts,
      ¬selection.Varies shifts { conditions := datedShifts } "room" item c := by
  have hdates : ((shiftStore annsShifts).table "Shift").toOption.all fun table =>
      table.storage.allItems.all fun item =>
        item.get? "due" ∈ [some (.number "3"), some (.number "7")] := by decide +kernel
  intro item hitem c hc
  have hstored := of_all_toOption hdates htable
  have hdate := of_decide_eq_true (List.all_eq_true.1 hstored item hitem)
  simp only [datedShifts, List.mem_cons, List.not_mem_nil, or_false] at hc
  rcases hc with rfl | rfl
  · rintro ⟨⟨index, hmem, -, hrange⟩, -⟩
    have hnone : ∀ index ∈ shifts.globalIndexes.values, index.rangeKey ≠ some "owner" := by decide
    exact hnone index hmem hrange
  · have hsettle : shifts.settle { conditions := datedShifts } ("due", .list [.ofInt 1, .ofInt 9]) =
        .range (.ofInt 1) (.ofInt 9) := rfl
    rintro ⟨-, ⟨first, last, -, hset⟩ | ⟨-, hdata⟩⟩
    · rw [hsettle] at hset
      cases hset
    · refine hdata fun value key hvalue _ => ?_
      rw [hsettle]
      have hordered (text : String) (htext : IsPlainNumeral text) :
          (Condition.range (.ofInt 1) (.ofInt 9)).restriction.IsComparable shifts "due"
            (.number text) :=
        ⟨.number htext ⟨_, rfl, by decide⟩, .number htext ⟨_, rfl, by decide⟩⟩
      rw [hvalue] at hdate
      simp only [List.mem_cons, Option.some.injEq, List.not_mem_nil, or_false] at hdate
      rcases hdate with rfl | rfl
      · exact hordered "3" ⟨_, rfl, by decide⟩
      · exact hordered "7" ⟨_, rfl, by decide⟩

/-- Of two shifts of an owner one is found if the room is restricted as well. The dates are no
longer part of the key condition then. -/
theorem all_narrows_annsShifts : ∃ records records' after after',
    foundShifts annsShifts datedShifts = (.ok records, after) ∧
    foundShifts annsShifts placedShifts = (.ok records', after') ∧
    records.length = 2 ∧ records'.length = 1 ∧ ∀ record ∈ records', record ∈ records := by
  obtain ⟨records, after, hall, hlength⟩ :=
    @exists_foundShifts annsShifts datedShifts 2 (by decide +kernel)
  obtain ⟨records', after', hall', hlength'⟩ :=
    @exists_foundShifts annsShifts placedShifts 1 (by decide +kernel)
  obtain ⟨definition, -, hdefine⟩ := exists_shifts
  have hread : ReadsShifts datedShifts (some "ownerGlobalIndex") ("owner", .str "ann") :=
    ⟨_, rfl, rfl, rfl⟩
  have hread' : ReadsShifts placedShifts (some "ownerGlobalIndex") ("owner", .str "ann") :=
    ⟨_, rfl, rfl, rfl⟩
  obtain ⟨selection, hplan, hindex, -⟩ := hread
  obtain ⟨selection', hplan', hindex', -⟩ := hread'
  have hdates : (Json.arr [.ofInt 1, .ofInt 9]).HasDistinctKeys := by
    refine .arr ?_
    simp only [List.forall_mem_cons]
    exact ⟨.num _, .num _, List.forall_mem_nil _⟩
  have hdistinct : (whereJson [("owner", .str "ann"),
      ("due", .arr [.ofInt 1, .ofInt 9])]).HasDistinctKeys := by
    refine hasDistinctKeys_whereJson (by decide) ?_
    simp only [List.forall_mem_cons]
    exact ⟨.str _, hdates, List.forall_mem_nil _⟩
  have hdistinct' : (whereJson [("owner", .str "ann"), ("due", .arr [.ofInt 1, .ofInt 9]),
      ("room", .obj [("gte", .str "b")])]).HasDistinctKeys := by
    refine hasDistinctKeys_whereJson (by decide) ?_
    simp only [List.forall_mem_cons]
    exact ⟨.str _, hdates, .obj (by decide) (List.forall_mem_singleton.2 (.str _)),
      List.forall_mem_nil _⟩
  obtain ⟨-, hnarrows⟩ := all_narrows hdefine (reaches_shiftStore annsShifts) hdistinct
    (show Filter.ofJson _ = .ok { conditions := datedShifts } from rfl) hdistinct'
    (show Filter.ofJson _ = .ok { conditions := placedShifts } from rfl)
    (List.perm_append_singleton _ _) rfl rfl rfl rfl rfl rfl hplan hplan'
    (hindex.trans hindex'.symm) hall hall'
  exact ⟨records, records', after, after', hall, hall', hlength, hlength',
    hnarrows fun _ htable => not_varies_annsShifts htable⟩

end Connector

end KeyedStore
