import KeyedStore.Attribute.Wire
import KeyedStore.Store.Answer
import KeyedStore.Table.Wire

/-!
# Wire form of requests and answers

Requests and answers are objects. Absent options are left out, and so are empty maps and lists other
than the keys, the items and the table key of a request.
-/
namespace KeyedStore

open Decoder Fields
open Json (optionalEntry listEntry)

/-- A map from placeholders to attribute names, as an object. -/
def namesToWire (names : OrderedMap String String) : Json :=
  .obj (names.map fun entry => (entry.1, .str entry.2))

/-- The map that an object of texts stands for. -/
def namesOfWire : Decoder (OrderedMap String String)
  | .obj entries => do
    let names ← entries.mapM fun entry => return (entry.1, ← string entry.2)
    return OrderedMap.ofList names
  | _ => .error .malformed

/-- An entry for a map of names that is written only if the map is not empty. -/
def namesEntry (name : String) (names : OrderedMap String String) : Option (String × Json) :=
  if names.isEmpty then none else some (name, namesToWire names)

/-- An entry for an item that is written only if the item is not empty. -/
def itemEntry (name : String) (item : Item) : Option (String × Json) :=
  if item.isEmpty then none else some (name, Item.toWire item)

namespace ListTables

def toWire (request : ListTables) : Json :=
  .ofEntries [
    optionalEntry "ExclusiveStartTableName" (request.startAfter.map .str),
    optionalEntry "Limit" (request.limit.map .ofInt)]

def ofWire : Decoder ListTables :=
  (ListTables.mk <$> optional "ExclusiveStartTableName" string
    <*> optional "Limit" int32).decode

end ListTables

namespace CreateTable

def toWire (request : CreateTable) : Json :=
  .ofEntries [
    some ("TableName", .str request.table),
    some ("KeySchema", .arr (request.keyElements.map KeyElement.toWire)),
    some ("AttributeDefinitions", .arr (request.definitions.map AttributeDefinition.toWire)),
    optionalEntry "BillingMode" (request.billing.map BillingMode.toWire),
    optionalEntry "ProvisionedThroughput" (request.throughput.map Throughput.toWire),
    listEntry "GlobalSecondaryIndexes" (request.globalIndexes.map GlobalIndex.toWire),
    listEntry "LocalSecondaryIndexes" (request.localIndexes.map LocalIndex.toWire)]

def ofWire : Decoder CreateTable :=
  (CreateTable.mk <$> required "TableName" string
    <*> required "KeySchema" (list KeyElement.ofWire)
    <*> required "AttributeDefinitions" (list AttributeDefinition.ofWire)
    <*> optional "BillingMode" BillingMode.ofWire
    <*> optional "ProvisionedThroughput" Throughput.ofWire
    <*> withDefault "GlobalSecondaryIndexes" (list GlobalIndex.ofWire) []
    <*> withDefault "LocalSecondaryIndexes" (list LocalIndex.ofWire) []).decode

end CreateTable

namespace DescribeTable

def toWire (request : DescribeTable) : Json := .obj [("TableName", .str request.table)]

def ofWire : Decoder DescribeTable := (DescribeTable.mk <$> required "TableName" string).decode

end DescribeTable

namespace GetItem

def toWire (request : GetItem) : Json :=
  .ofEntries [
    some ("TableName", .str request.table),
    some ("Key", Item.toWire request.key),
    optionalEntry "ConsistentRead" (request.consistentRead.map .bool)]

def ofWire : Decoder GetItem :=
  (GetItem.mk <$> required "TableName" string
    <*> required "Key" Item.ofWire
    <*> optional "ConsistentRead" bool).decode

end GetItem

namespace PutItem

def toWire (request : PutItem) : Json :=
  .ofEntries [
    some ("TableName", .str request.table),
    some ("Item", Item.toWire request.item),
    optionalEntry "ReturnValues" (request.returnValues.map ReturnValues.toWire),
    optionalEntry "ReturnConsumedCapacity" (request.capacityReport.map CapacityReport.toWire)]

def ofWire : Decoder PutItem :=
  (PutItem.mk <$> required "TableName" string
    <*> required "Item" Item.ofWire
    <*> optional "ReturnValues" ReturnValues.ofWire
    <*> optional "ReturnConsumedCapacity" CapacityReport.ofWire).decode

end PutItem

namespace UpdateItem

def toWire (request : UpdateItem) : Json :=
  .ofEntries [
    some ("TableName", .str request.table),
    some ("Key", Item.toWire request.key),
    optionalEntry "UpdateExpression" (request.update.map .str),
    namesEntry "ExpressionAttributeNames" request.names,
    itemEntry "ExpressionAttributeValues" request.values,
    optionalEntry "ReturnValues" (request.returnValues.map ReturnValues.toWire)]

def ofWire : Decoder UpdateItem :=
  (UpdateItem.mk <$> required "TableName" string
    <*> required "Key" Item.ofWire
    <*> optional "UpdateExpression" string
    <*> withDefault "ExpressionAttributeNames" namesOfWire []
    <*> withDefault "ExpressionAttributeValues" Item.ofWire []
    <*> optional "ReturnValues" ReturnValues.ofWire).decode

end UpdateItem

namespace DeleteItem

def toWire (request : DeleteItem) : Json :=
  .ofEntries [
    some ("TableName", .str request.table),
    some ("Key", Item.toWire request.key),
    optionalEntry "ReturnValues" (request.returnValues.map ReturnValues.toWire)]

def ofWire : Decoder DeleteItem :=
  (DeleteItem.mk <$> required "TableName" string
    <*> required "Key" Item.ofWire
    <*> optional "ReturnValues" ReturnValues.ofWire).decode

end DeleteItem

namespace Query

def toWire (request : Query) : Json :=
  .ofEntries [
    some ("TableName", .str request.table),
    optionalEntry "IndexName" (request.index.map .str),
    optionalEntry "KeyConditionExpression" (request.keyCondition.map .str),
    optionalEntry "FilterExpression" (request.filter.map .str),
    namesEntry "ExpressionAttributeNames" request.names,
    itemEntry "ExpressionAttributeValues" request.values,
    optionalEntry "ScanIndexForward" (request.forward.map .bool),
    optionalEntry "Limit" (request.limit.map .ofInt),
    itemEntry "ExclusiveStartKey" request.startKey,
    optionalEntry "ConsistentRead" (request.consistentRead.map .bool)]

def ofWire : Decoder Query :=
  (Query.mk <$> required "TableName" string
    <*> optional "IndexName" string
    <*> optional "KeyConditionExpression" string
    <*> optional "FilterExpression" string
    <*> withDefault "ExpressionAttributeNames" namesOfWire []
    <*> withDefault "ExpressionAttributeValues" Item.ofWire []
    <*> optional "ScanIndexForward" bool
    <*> optional "Limit" int32
    <*> withDefault "ExclusiveStartKey" Item.ofWire []
    <*> optional "ConsistentRead" bool).decode

end Query

namespace Scan

def toWire (request : Scan) : Json :=
  .ofEntries [
    some ("TableName", .str request.table),
    optionalEntry "IndexName" (request.index.map .str),
    optionalEntry "FilterExpression" (request.filter.map .str),
    namesEntry "ExpressionAttributeNames" request.names,
    itemEntry "ExpressionAttributeValues" request.values,
    optionalEntry "Limit" (request.limit.map .ofInt),
    itemEntry "ExclusiveStartKey" request.startKey]

def ofWire : Decoder Scan :=
  (Scan.mk <$> required "TableName" string
    <*> optional "IndexName" string
    <*> optional "FilterExpression" string
    <*> withDefault "ExpressionAttributeNames" namesOfWire []
    <*> withDefault "ExpressionAttributeValues" Item.ofWire []
    <*> optional "Limit" int32
    <*> withDefault "ExclusiveStartKey" Item.ofWire []).decode

end Scan

namespace TableNames

def toWire (answer : TableNames) : Json :=
  .ofEntries [
    listEntry "TableNames" (answer.names.map .str),
    optionalEntry "LastEvaluatedTableName" (answer.last.map .str)]

def ofWire : Decoder TableNames :=
  (TableNames.mk <$> withDefault "TableNames" (list string) []
    <*> optional "LastEvaluatedTableName" string).decode

end TableNames

namespace TableAnswer

/-- The table stands under a field whose name depends on the operation. -/
def toWire (field : String) (answer : TableAnswer) : Json :=
  .ofEntries [optionalEntry field (answer.table.map TableDescription.toWire)]

def ofWire (field : String) : Decoder TableAnswer :=
  (TableAnswer.mk <$> optional field TableDescription.ofWire).decode

end TableAnswer

namespace ItemAnswer

/-- The item stands under a field whose name depends on the operation. -/
def toWire (field : String) (answer : ItemAnswer) : Json :=
  .ofEntries [optionalEntry field (answer.item.map Item.toWire)]

def ofWire (field : String) : Decoder ItemAnswer :=
  (ItemAnswer.mk <$> optional field Item.ofWire).decode

end ItemAnswer

namespace ItemPage

def toWire (page : ItemPage) : Json :=
  .ofEntries [
    some ("Items", .arr (page.items.map Item.toWire)),
    some ("Count", .ofInt page.count),
    some ("ScannedCount", .ofInt page.scannedCount),
    optionalEntry "LastEvaluatedKey" (page.lastKey.map Item.toWire)]

def ofWire : Decoder ItemPage :=
  (ItemPage.mk <$> withDefault "Items" (list Item.ofWire) []
    <*> withDefault "Count" int32 0
    <*> withDefault "ScannedCount" int32 0
    <*> optional "LastEvaluatedKey" Item.ofWire).decode

end ItemPage

namespace Request

/-- The wire form of a request, without the name of its operation. -/
def toWire : Request → Json
  | listTables request => request.toWire
  | createTable request => request.toWire
  | describeTable request => request.toWire
  | getItem request => request.toWire
  | putItem request => request.toWire
  | updateItem request => request.toWire
  | deleteItem request => request.toWire
  | query request => request.toWire
  | scan request => request.toWire

/-- The decoder for requests of an operation, if there is one of that name. -/
def decoder? (operation : String) : Option (Decoder Request) :=
  match operation with
  | "ListTables" => some fun json => listTables <$> ListTables.ofWire json
  | "CreateTable" => some fun json => createTable <$> CreateTable.ofWire json
  | "DescribeTable" => some fun json => describeTable <$> DescribeTable.ofWire json
  | "GetItem" => some fun json => getItem <$> GetItem.ofWire json
  | "PutItem" => some fun json => putItem <$> PutItem.ofWire json
  | "UpdateItem" => some fun json => updateItem <$> UpdateItem.ofWire json
  | "DeleteItem" => some fun json => deleteItem <$> DeleteItem.ofWire json
  | "Query" => some fun json => query <$> Query.ofWire json
  | "Scan" => some fun json => scan <$> Scan.ofWire json
  | _ => none

/-- The wire form of the answer to a request. -/
def answerToWire : (request : Request) → request.Answer → Json
  | listTables _, answer => TableNames.toWire answer
  | createTable _, answer => TableAnswer.toWire "TableDescription" answer
  | describeTable _, answer => TableAnswer.toWire "Table" answer
  | getItem _, answer => ItemAnswer.toWire "Item" answer
  | putItem _, answer | updateItem _, answer | deleteItem _, answer =>
    ItemAnswer.toWire "Attributes" answer
  | query _, answer | scan _, answer => ItemPage.toWire answer

/-- The answer to a request that a wire form stands for. -/
def answerOfWire : (request : Request) → Json → Except DecodeError request.Answer
  | listTables _, json => TableNames.ofWire json
  | createTable _, json => TableAnswer.ofWire "TableDescription" json
  | describeTable _, json => TableAnswer.ofWire "Table" json
  | getItem _, json => ItemAnswer.ofWire "Item" json
  | putItem _, json | updateItem _, json | deleteItem _, json => ItemAnswer.ofWire "Attributes" json
  | query _, json | scan _, json => ItemPage.ofWire json

end Request

end KeyedStore
