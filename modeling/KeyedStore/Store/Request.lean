import KeyedStore.Attribute.Value
import KeyedStore.Table.Description

/-!
# Requests

The nine requests a store answers. Expressions refer to attribute names and values by placeholders,
which the two maps beside them resolve.
-/
namespace KeyedStore

/-- Asks for table names, page by page. -/
structure ListTables where
  startAfter : Option String := none
  limit : Option Int := none

/-- Asks for a new table. -/
structure CreateTable where
  table : String
  keyElements : List KeyElement := []
  definitions : List AttributeDefinition := []
  billing : Option BillingMode := none
  throughput : Option Throughput := none
  globalIndexes : List GlobalIndex := []
  localIndexes : List LocalIndex := []
  deriving DecidableEq

/-- Asks for the description of a table. -/
structure DescribeTable where
  table : String

/-- Asks for the item under a key. -/
structure GetItem where
  table : String
  key : Item := []
  consistentRead : Option Bool := none

/-- Stores an item in place of the one with the same key. -/
structure PutItem where
  table : String
  item : Item := []
  returnValues : Option ReturnValues := none
  capacityReport : Option CapacityReport := none

/-- Changes attributes of the item under a key. -/
structure UpdateItem where
  table : String
  key : Item := []
  update : Option String := none
  names : OrderedMap String String := []
  values : OrderedMap String AttributeValue := []
  returnValues : Option ReturnValues := none

/-- Removes the item under a key. -/
structure DeleteItem where
  table : String
  key : Item := []
  returnValues : Option ReturnValues := none

/-- Asks for the items of one partition of a table or index, page by page. -/
structure Query where
  table : String
  index : Option String := none
  keyCondition : Option String := none
  filter : Option String := none
  names : OrderedMap String String := []
  values : OrderedMap String AttributeValue := []
  forward : Option Bool := none
  limit : Option Int := none
  startKey : Item := []
  consistentRead : Option Bool := none

/-- Asks for all items of a table or index, page by page. -/
structure Scan where
  table : String
  index : Option String := none
  filter : Option String := none
  names : OrderedMap String String := []
  values : OrderedMap String AttributeValue := []
  limit : Option Int := none
  startKey : Item := []

/-- A request to a store. -/
inductive Request where
  | listTables (request : ListTables)
  | createTable (request : CreateTable)
  | describeTable (request : DescribeTable)
  | getItem (request : GetItem)
  | putItem (request : PutItem)
  | updateItem (request : UpdateItem)
  | deleteItem (request : DeleteItem)
  | query (request : Query)
  | scan (request : Scan)

/-- The name of the operation that a request asks for. -/
def Request.operation : Request → String
  | listTables _ => "ListTables"
  | createTable _ => "CreateTable"
  | describeTable _ => "DescribeTable"
  | getItem _ => "GetItem"
  | putItem _ => "PutItem"
  | updateItem _ => "UpdateItem"
  | deleteItem _ => "DeleteItem"
  | query _ => "Query"
  | scan _ => "Scan"

end KeyedStore
