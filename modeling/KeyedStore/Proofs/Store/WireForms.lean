import KeyedStore.Proofs.Table.WireForms
import KeyedStore.Store.Wire
import Mathlib.Data.Set.List

/-!
# Wire forms of requests and answers

Every request is read back by the decoder of its operation, and every answer by the decoder for
answers to its request, with the keys of objects in any order. `IsRepresentable` says of a request
what its type promises on the wire: numbers are in the range of their field, a time is finite, and a
map has each key once.
-/
namespace KeyedStore

open Decoder Fields

/-- Every map in an item, and the item itself, has its entries in the order of their names. -/
def Item.IsOrdered (item : Item) : Prop := (AttributeValue.map item).IsOrdered

namespace Decoder

theorem restores_item {item : Item} (h : item.IsOrdered) :
    Item.ofWire.Restores item.toWire item := by
  have hdistinct := (AttributeValue.hasDistinctKeys_toWire h).isProper.values _ List.mem_cons_self
  cases h with
  | map ascending hordered =>
    refine ⟨fun arranged hsame hkeys => ?_, hdistinct, nofun⟩
    cases hsame with
    | obj hentries =>
      exact AttributeValue.entriesOfWire_of_same ascending
        (fun entry hmem json => AttributeValue.ofWire_of_same (hordered entry hmem)) hentries
        hkeys.isProper

/-- An object with the same texts has them under the same keys. -/
theorem get?_eq_of_same_names {names : OrderedMap String String} {others : Record}
    (h : (namesToWire names).Same (.obj others)) (key : String) :
    others.get? key = (names.get? key).map .str := by
  cases h with
  | obj h =>
    have hkey := h key
    rw [Record.get?_map] at hkey
    cases hname : names.get? key with
    | none =>
      rw [hname] at hkey
      exact eq_none_of_none_rel hkey
    | some text =>
      rw [hname] at hkey
      obtain ⟨json, hjson, ⟨⟩⟩ := exists_of_some_rel hkey
      exact hjson

theorem namesOfWire_texts (texts : List (String × String)) :
    namesOfWire (.obj (texts.map fun entry => (entry.1, .str entry.2))) =
      .ok (OrderedMap.ofList texts) := by
  have hread : (texts.map fun entry => (entry.1, Json.str entry.2)).mapM
      (fun entry => do return (entry.1, ← string entry.2)) =
        (.ok texts : Except DecodeError _) := by
    induction texts with
    | nil => rfl
    | cons entry rest ih =>
      rw [List.map_cons, List.mapM_cons, ih]
      rfl
  rw [namesOfWire, hread]
  rfl

/-- A map of names comes back from its entries in any order. -/
theorem restores_names {names : OrderedMap String String} (h : names.IsAscending) :
    namesOfWire.Restores (namesToWire names) names := by
  refine ⟨fun arranged hsame hdistinct => ?_, .obj ?_ ?_, nofun⟩
  · obtain ⟨others, rfl⟩ : ∃ others, arranged = .obj others := by
      cases hsame
      exact ⟨_, rfl⟩
    have hget := get?_eq_of_same_names hsame
    have hkeys := hdistinct.isProper.distinct
    obtain ⟨texts, rfl⟩ : others ∈ Set.range
        (List.map fun entry : String × String => (entry.1, Json.str entry.2)) := by
      rw [Set.range_list_map]
      intro entry hmem
      have hentry := (Record.get?_eq_some_iff hkeys).2 hmem
      rw [hget] at hentry
      obtain ⟨text, -, htext⟩ := Option.map_eq_some_iff.1 hentry
      exact ⟨(entry.1, text), Prod.ext rfl htext⟩
    rw [namesOfWire_texts]
    refine congrArg Except.ok (OrderedMap.isAscending_ofList.eq_of_get? h fun key => ?_)
    ext text
    have hentry := @Record.get?_eq_some_iff _ key (.str text) hkeys
    rw [hget] at hentry
    rw [OrderedMap.get?_ofList_eq_some_iff (by simpa [Function.comp_def] using hkeys)]
    simpa using hentry.symm
  · rw [List.map_map]
    exact h.nodup_keys
  · exact List.forall_mem_map.2 fun entry _ => .str entry.2

variable {α β : Type} {read : Decoder α} {write : α → Json} {a : α}

/-- A value inside another one is read back with it. -/
theorem ReadsBack.map (h : read.ReadsBack write a) (g : α → β) {writeOuter : β → Json}
    (hwrite : writeOuter (g a) = write a) :
    Decoder.ReadsBack (fun json => g <$> read json) writeOuter (g a) where
  restores := hwrite ▸ h.restores.map g
  keys := hwrite ▸ h.keys

end Decoder

structure ListTables.IsRepresentable (request : ListTables) : Prop where
  limit : ∀ limit ∈ request.limit, FitsInt32 limit

theorem ListTables.IsRepresentable.readsBack {request : ListTables} (h : request.IsRepresentable) :
    ListTables.ofWire.ReadsBack ListTables.toWire request := by
  have hfields := (writes_optional "ExclusiveStartTableName" request.startAfter
      fun name _ => restores_string name).map ListTables.mk
    |>.seq (writes_optional "Limit" request.limit
      fun limit hmem => restores_int32 (h.limit limit hmem))
  exact hfields.readsBack (by decide) rfl

structure CreateTable.IsRepresentable (request : CreateTable) : Prop where
  throughput : ∀ throughput ∈ request.throughput, throughput.IsRepresentable
  globalIndexes : ∀ index ∈ request.globalIndexes, index.IsRepresentable

theorem CreateTable.IsRepresentable.readsBack {request : CreateTable}
    (h : request.IsRepresentable) :
    CreateTable.ofWire.ReadsBack CreateTable.toWire request := by
  have hfields := (writes_required "TableName" (restores_string request.table)).map CreateTable.mk
    |>.seq (writes_required "KeySchema" (restores_list
      fun element (_ : element ∈ request.keyElements) => element.readsBack.restores))
    |>.seq (writes_required "AttributeDefinitions" (restores_list
      fun definition (_ : definition ∈ request.definitions) => definition.readsBack.restores))
    |>.seq (writes_optional "BillingMode" request.billing
      fun mode _ => BillingMode.readsWords.restores mode)
    |>.seq (writes_optional "ProvisionedThroughput" request.throughput
      fun throughput hmem => (h.throughput throughput hmem).readsBack.restores)
    |>.seq (writes_list "GlobalSecondaryIndexes" request.globalIndexes
      fun index hmem => (h.globalIndexes index hmem).readsBack.restores)
    |>.seq (writes_list "LocalSecondaryIndexes" request.localIndexes
      fun index _ => index.readsBack.restores)
  exact hfields.readsBack (by decide) rfl

theorem DescribeTable.readsBack (request : DescribeTable) :
    DescribeTable.ofWire.ReadsBack DescribeTable.toWire request := by
  have hfields := (writes_required "TableName" (restores_string request.table)).map DescribeTable.mk
  exact hfields.readsBack (by decide) rfl

structure GetItem.IsRepresentable (request : GetItem) : Prop where
  key : request.key.IsOrdered

theorem GetItem.IsRepresentable.readsBack {request : GetItem} (h : request.IsRepresentable) :
    GetItem.ofWire.ReadsBack GetItem.toWire request := by
  have hfields := (writes_required "TableName" (restores_string request.table)).map GetItem.mk
    |>.seq (writes_required "Key" (restores_item h.key))
    |>.seq (writes_optional "ConsistentRead" request.consistentRead fun b _ => restores_bool b)
  exact hfields.readsBack (by decide) rfl

structure PutItem.IsRepresentable (request : PutItem) : Prop where
  item : request.item.IsOrdered

theorem PutItem.IsRepresentable.readsBack {request : PutItem} (h : request.IsRepresentable) :
    PutItem.ofWire.ReadsBack PutItem.toWire request := by
  have hfields := (writes_required "TableName" (restores_string request.table)).map PutItem.mk
    |>.seq (writes_required "Item" (restores_item h.item))
    |>.seq (writes_optional "ReturnValues" request.returnValues
      fun values _ => ReturnValues.readsWords.restores values)
    |>.seq (writes_optional "ReturnConsumedCapacity" request.capacityReport
      fun report _ => CapacityReport.readsWords.restores report)
  exact hfields.readsBack (by decide) rfl

structure UpdateItem.IsRepresentable (request : UpdateItem) : Prop where
  key : request.key.IsOrdered
  names : request.names.IsAscending
  values : Item.IsOrdered request.values

theorem UpdateItem.IsRepresentable.readsBack {request : UpdateItem} (h : request.IsRepresentable) :
    UpdateItem.ofWire.ReadsBack UpdateItem.toWire request := by
  have hfields := (writes_required "TableName" (restores_string request.table)).map UpdateItem.mk
    |>.seq (writes_required "Key" (restores_item h.key))
    |>.seq (writes_optional "UpdateExpression" request.update fun text _ => restores_string text)
    |>.seq (writes_collection "ExpressionAttributeNames" (restores_names h.names))
    |>.seq (writes_collection "ExpressionAttributeValues" (restores_item h.values))
    |>.seq (writes_optional "ReturnValues" request.returnValues
      fun values _ => ReturnValues.readsWords.restores values)
  exact hfields.readsBack (by decide) rfl

structure DeleteItem.IsRepresentable (request : DeleteItem) : Prop where
  key : request.key.IsOrdered

theorem DeleteItem.IsRepresentable.readsBack {request : DeleteItem} (h : request.IsRepresentable) :
    DeleteItem.ofWire.ReadsBack DeleteItem.toWire request := by
  have hfields := (writes_required "TableName" (restores_string request.table)).map DeleteItem.mk
    |>.seq (writes_required "Key" (restores_item h.key))
    |>.seq (writes_optional "ReturnValues" request.returnValues
      fun values _ => ReturnValues.readsWords.restores values)
  exact hfields.readsBack (by decide) rfl

structure Query.IsRepresentable (request : Query) : Prop where
  names : request.names.IsAscending
  values : Item.IsOrdered request.values
  limit : ∀ limit ∈ request.limit, FitsInt32 limit
  startKey : request.startKey.IsOrdered

theorem Query.IsRepresentable.readsBack {request : Query} (h : request.IsRepresentable) :
    Query.ofWire.ReadsBack Query.toWire request := by
  have hfields := (writes_required "TableName" (restores_string request.table)).map Query.mk
    |>.seq (writes_optional "IndexName" request.index fun name _ => restores_string name)
    |>.seq (writes_optional "KeyConditionExpression" request.keyCondition
      fun text _ => restores_string text)
    |>.seq (writes_optional "FilterExpression" request.filter fun text _ => restores_string text)
    |>.seq (writes_collection "ExpressionAttributeNames" (restores_names h.names))
    |>.seq (writes_collection "ExpressionAttributeValues" (restores_item h.values))
    |>.seq (writes_optional "ScanIndexForward" request.forward fun b _ => restores_bool b)
    |>.seq (writes_optional "Limit" request.limit
      fun limit hmem => restores_int32 (h.limit limit hmem))
    |>.seq (writes_collection "ExclusiveStartKey" (restores_item h.startKey))
    |>.seq (writes_optional "ConsistentRead" request.consistentRead fun b _ => restores_bool b)
  exact hfields.readsBack (by decide) rfl

structure Scan.IsRepresentable (request : Scan) : Prop where
  names : request.names.IsAscending
  values : Item.IsOrdered request.values
  limit : ∀ limit ∈ request.limit, FitsInt32 limit
  startKey : request.startKey.IsOrdered

theorem Scan.IsRepresentable.readsBack {request : Scan} (h : request.IsRepresentable) :
    Scan.ofWire.ReadsBack Scan.toWire request := by
  have hfields := (writes_required "TableName" (restores_string request.table)).map Scan.mk
    |>.seq (writes_optional "IndexName" request.index fun name _ => restores_string name)
    |>.seq (writes_optional "FilterExpression" request.filter fun text _ => restores_string text)
    |>.seq (writes_collection "ExpressionAttributeNames" (restores_names h.names))
    |>.seq (writes_collection "ExpressionAttributeValues" (restores_item h.values))
    |>.seq (writes_optional "Limit" request.limit
      fun limit hmem => restores_int32 (h.limit limit hmem))
    |>.seq (writes_collection "ExclusiveStartKey" (restores_item h.startKey))
  exact hfields.readsBack (by decide) rfl

theorem TableNames.readsBack (answer : TableNames) :
    TableNames.ofWire.ReadsBack TableNames.toWire answer := by
  have hfields := (writes_list "TableNames" answer.names
      fun name _ => restores_string name).map TableNames.mk
    |>.seq (writes_optional "LastEvaluatedTableName" answer.last fun name _ => restores_string name)
  exact hfields.readsBack (by decide) rfl

/-- The description of a table is read back from under any name in Pascal case. -/
theorem TableAnswer.readsBack {field : String} (hfield : IsPascalCase field) {answer : TableAnswer}
    (h : ∀ table ∈ answer.table, table.IsRepresentable) :
    (TableAnswer.ofWire field).ReadsBack (TableAnswer.toWire field) answer := by
  have hfields := (writes_optional field answer.table
    fun table hmem => (h table hmem).readsBack.restores).map TableAnswer.mk
  exact hfields.readsBack ⟨List.nodup_singleton _, List.forall_mem_singleton.2 hfield⟩ rfl

/-- An item is read back from under any name in Pascal case. -/
theorem ItemAnswer.readsBack {field : String} (hfield : IsPascalCase field) {answer : ItemAnswer}
    (h : ∀ item ∈ answer.item, item.IsOrdered) :
    (ItemAnswer.ofWire field).ReadsBack (ItemAnswer.toWire field) answer := by
  have hfields := (writes_optional field answer.item
    fun item hmem => restores_item (h item hmem)).map ItemAnswer.mk
  exact hfields.readsBack ⟨List.nodup_singleton _, List.forall_mem_singleton.2 hfield⟩ rfl

structure ItemPage.IsRepresentable (page : ItemPage) : Prop where
  items : ∀ item ∈ page.items, item.IsOrdered
  count : FitsInt32 page.count
  scannedCount : FitsInt32 page.scannedCount
  lastKey : ∀ key ∈ page.lastKey, key.IsOrdered

theorem ItemPage.IsRepresentable.readsBack {page : ItemPage} (h : page.IsRepresentable) :
    ItemPage.ofWire.ReadsBack ItemPage.toWire page := by
  have hfields := (writes_withDefault "Items" [] (restores_list
      fun item hmem => restores_item (h.items item hmem))).map ItemPage.mk
    |>.seq (writes_withDefault "Count" 0 (restores_int32 h.count))
    |>.seq (writes_withDefault "ScannedCount" 0 (restores_int32 h.scannedCount))
    |>.seq (writes_optional "LastEvaluatedKey" page.lastKey
      fun key hmem => restores_item (h.lastKey key hmem))
  exact hfields.readsBack (by decide) rfl

/-- What the type of a request promises of it. -/
def Request.IsRepresentable : Request → Prop
  | listTables request => request.IsRepresentable
  | createTable request => request.IsRepresentable
  | describeTable _ => True
  | getItem request => request.IsRepresentable
  | putItem request => request.IsRepresentable
  | updateItem request => request.IsRepresentable
  | deleteItem request => request.IsRepresentable
  | query request => request.IsRepresentable
  | scan request => request.IsRepresentable

/-- What the type of the answer to a request promises of it. -/
def Request.IsRepresentableAnswer : (request : Request) → request.Answer → Prop
  | listTables _, _ => True
  | createTable _, answer | describeTable _, answer =>
    ∀ table ∈ TableAnswer.table answer, table.IsRepresentable
  | getItem _, answer | putItem _, answer | updateItem _, answer | deleteItem _, answer =>
    ∀ item ∈ ItemAnswer.item answer, item.IsOrdered
  | query _, answer | scan _, answer => ItemPage.IsRepresentable answer

/-- A request is read back by the decoder of its operation. -/
theorem Request.IsRepresentable.readsBack {request : Request} (h : request.IsRepresentable) :
    ∃ decoder, Request.decoder? request.operation = some decoder ∧
      decoder.ReadsBack Request.toWire request := by
  cases request with
  | listTables request => exact ⟨_, rfl, (ListTables.IsRepresentable.readsBack h).map _ rfl⟩
  | createTable request => exact ⟨_, rfl, (CreateTable.IsRepresentable.readsBack h).map _ rfl⟩
  | describeTable request => exact ⟨_, rfl, request.readsBack.map _ rfl⟩
  | getItem request => exact ⟨_, rfl, (GetItem.IsRepresentable.readsBack h).map _ rfl⟩
  | putItem request => exact ⟨_, rfl, (PutItem.IsRepresentable.readsBack h).map _ rfl⟩
  | updateItem request => exact ⟨_, rfl, (UpdateItem.IsRepresentable.readsBack h).map _ rfl⟩
  | deleteItem request => exact ⟨_, rfl, (DeleteItem.IsRepresentable.readsBack h).map _ rfl⟩
  | query request => exact ⟨_, rfl, (Query.IsRepresentable.readsBack h).map _ rfl⟩
  | scan request => exact ⟨_, rfl, (Scan.IsRepresentable.readsBack h).map _ rfl⟩

/-- An answer is read back by the decoder for answers to its request. -/
theorem Request.IsRepresentableAnswer.readsBack {request : Request} {answer : request.Answer}
    (h : request.IsRepresentableAnswer answer) :
    Decoder.ReadsBack request.answerOfWire request.answerToWire answer := by
  cases request with
  | listTables _ => exact TableNames.readsBack answer
  | createTable _ | describeTable _ => exact TableAnswer.readsBack (by decide) h
  | getItem _ | putItem _ | updateItem _ | deleteItem _ =>
    exact ItemAnswer.readsBack (by decide) h
  | query _ | scan _ => exact ItemPage.IsRepresentable.readsBack h

/-- What crosses the wire is a JSON value, and whatever is written as one is read back from it, in
whatever order its keys are. A request is read back by the decoder of its operation and an answer by
the decoder for its request, and so is every structure inside them; the wire forms are objects with
keys in Pascal case, in which nothing is null. Enumerations are read back from upper-case words. The
texts of the JSON values are not spoken of. -/
theorem wire_readsBack :
    (∀ request : Request, request.IsRepresentable →
      ∃ decoder, Request.decoder? request.operation = some decoder ∧
        decoder.ReadsBack Request.toWire request) ∧
    (∀ (request : Request) (answer : request.Answer), request.IsRepresentableAnswer answer →
      Decoder.ReadsBack request.answerOfWire request.answerToWire answer) ∧
    (∀ table : TableDescription, table.IsRepresentable →
      TableDescription.ofWire.ReadsBack TableDescription.toWire table) ∧
    (∀ index : GlobalIndex, index.IsRepresentable →
      GlobalIndex.ofWire.ReadsBack GlobalIndex.toWire index) ∧
    (∀ index, LocalIndex.ofWire.ReadsBack LocalIndex.toWire index) ∧
    (∀ projection, Projection.ofWire.ReadsBack Projection.toWire projection) ∧
    (∀ throughput : Throughput, throughput.IsRepresentable →
      Throughput.ofWire.ReadsBack Throughput.toWire throughput) ∧
    (∀ definition, AttributeDefinition.ofWire.ReadsBack AttributeDefinition.toWire definition) ∧
    (∀ element, KeyElement.ofWire.ReadsBack KeyElement.toWire element) ∧
    KeyPart.ofWire.ReadsWords KeyPart.toWire ∧
    ScalarType.ofWire.ReadsWords ScalarType.toWire ∧
    TableStatus.ofWire.ReadsWords TableStatus.toWire ∧
    BillingMode.ofWire.ReadsWords BillingMode.toWire ∧
    ProjectionType.ofWire.ReadsWords ProjectionType.toWire ∧
    ReturnValues.ofWire.ReadsWords ReturnValues.toWire ∧
    CapacityReport.ofWire.ReadsWords CapacityReport.toWire :=
  ⟨fun _ h => h.readsBack, fun _ _ h => h.readsBack, fun _ h => h.readsBack,
    fun _ h => h.readsBack, LocalIndex.readsBack, Projection.readsBack, fun _ h => h.readsBack,
    AttributeDefinition.readsBack, KeyElement.readsBack, KeyPart.readsWords, ScalarType.readsWords,
    TableStatus.readsWords, BillingMode.readsWords, ProjectionType.readsWords,
    ReturnValues.readsWords, CapacityReport.readsWords⟩

/-- A query of the orders of a customer, continued after the seventh. -/
def ordersQuery : Query where
  table := "Order"
  index := some "byCustomer"
  keyCondition := some "#C = :customerId"
  names := [("#C", "customerId")]
  values := [(":customerId", .string "c1")]
  limit := some 25
  startKey := [("customerId", .string "c1"), ("orderId", .number "7")]

def ordersTable : TableDescription where
  name := some "Order"
  status := some .active
  keyElements := [⟨"orderId", .hash⟩]
  definitions := [⟨"orderId", .number⟩, ⟨"customerId", .string⟩]
  itemCount := some 12
  createdAt := some ⟨false, 0x41d954fc40200000, by decide⟩
  throughput := some ⟨1, 1⟩
  globalIndexes := [⟨"byCustomer", [⟨"customerId", .hash⟩, ⟨"orderId", .range⟩],
    ⟨some .keysOnly, []⟩, some ⟨5, 1⟩⟩]
  localIndexes := []

/-- An empty last page. -/
def ordersPage : ItemPage where
  scannedCount := 5
  lastKey := some []

/-- A query, its answer and the table that they are about come back. What is absent or empty is not
written, but for the items of a page and a key that is present. -/
theorem wire_readsBack_orders :
    (Request.query ordersQuery).IsRepresentable ∧
    ordersQuery.toWire.entries.map (·.1) = ["TableName", "IndexName", "KeyConditionExpression",
      "ExpressionAttributeNames", "ExpressionAttributeValues", "Limit", "ExclusiveStartKey"] ∧
    (∃ decoder, Request.decoder? "Query" = some decoder ∧
      decoder ordersQuery.toWire = .ok (.query ordersQuery)) ∧
    ordersPage.IsRepresentable ∧
    ordersPage.toWire.entries.map (·.1) = ["Items", "Count", "ScannedCount", "LastEvaluatedKey"] ∧
    ItemPage.ofWire ordersPage.toWire = .ok ordersPage ∧
    ordersTable.IsRepresentable ∧
    ordersTable.toWire.entries.map (·.1) = ["TableName", "TableStatus", "KeySchema",
      "AttributeDefinitions", "ItemCount", "CreationDateTime", "ProvisionedThroughput",
      "GlobalSecondaryIndexes"] ∧
    TableDescription.ofWire ordersTable.toWire = .ok ordersTable := by
  have hquery : (Request.query ordersQuery).IsRepresentable := {
    names := List.pairwise_singleton _ _
    values := .map (List.pairwise_singleton _ _) (by simpa [ordersQuery] using .string _)
    limit := by rintro _ ⟨rfl⟩; decide
    startKey := .map (by simp [OrderedMap.IsAscending, ordersQuery]; decide)
      (by simpa [ordersQuery] using ⟨.string _, .number _⟩) }
  have hpage : ordersPage.IsRepresentable :=
    { items := List.forall_mem_nil _
      count := by decide
      scannedCount := by decide
      lastKey := by rintro _ ⟨rfl⟩; exact .map .nil (List.forall_mem_nil _) }
  have htable : ordersTable.IsRepresentable :=
    { itemCount := by rintro _ ⟨rfl⟩; decide
      createdAt := by rintro _ ⟨rfl⟩; decide
      throughput := by rintro _ ⟨rfl⟩; exact ⟨by decide, by decide⟩
      globalIndexes := List.forall_mem_singleton.2
        (by rintro _ ⟨rfl⟩; exact ⟨by decide, by decide⟩) }
  obtain ⟨decoder, hdecoder, hback⟩ := wire_readsBack.1 (.query ordersQuery) hquery
  exact ⟨hquery, rfl, ⟨decoder, hdecoder, hback.restores.read_eq_ok⟩, hpage, rfl,
    (wire_readsBack.2.1 (.query ordersQuery) ordersPage hpage).restores.read_eq_ok, htable, rfl,
    (wire_readsBack.2.2.1 ordersTable htable).restores.read_eq_ok⟩

end KeyedStore
