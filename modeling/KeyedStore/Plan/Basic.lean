import KeyedStore.Attribute.Json
import KeyedStore.Expression.Printer
import KeyedStore.Plan.Placeholders
import KeyedStore.Store.Request

/-!
# Plans

A plan says how a filter is read from a table: as a query of one partition, or as a scan of the
whole table. Either way it holds the conditions of the filter, split into those on the key and
those applied after the read, with the placeholders they use.
-/
namespace KeyedStore

/-- The conditions of a filter, ready to be sent. -/
structure Selection where
  /-- The index to read from, none for the table itself. -/
  index : Option String := none
  /-- The equality on the partition key. -/
  hashCondition : Option Expr := none
  /-- The comparison on the sort key. -/
  rangeCondition : Option Expr := none
  /-- The conditions applied after the read. -/
  filters : List Expr := []
  names : OrderedMap String String := []
  values : OrderedMap String Json := []

namespace Selection

/-- The conditions on the key, that on the partition first. -/
def keyConditions (selection : Selection) : List Expr :=
  selection.hashCondition.toList ++ selection.rangeCondition.toList

/-- The text of the key condition. -/
def keyCondition (selection : Selection) : Option String :=
  (Expr.conjunction? selection.keyConditions).map Expr.print

/-- The text of the filter, present if more attributes are named than the key condition uses. -/
def filter (selection : Selection) : Option String :=
  if selection.keyConditions.length < selection.names.length then
    (Expr.conjunction? selection.filters).map Expr.print
  else none

/-- The values of the placeholders as attribute values. -/
def attributeValues (selection : Selection) : OrderedMap String AttributeValue :=
  OrderedMap.mapValues Json.toAttribute selection.values

/-- The request for the first page of a query. -/
def toQuery (selection : Selection) (table : String) : Query where
  table := table
  index := selection.index
  keyCondition := selection.keyCondition
  filter := selection.filter
  names := selection.names
  values := selection.attributeValues

/-- The request for the first page of a scan. -/
def toScan (selection : Selection) (table : String) : Scan where
  table := table
  index := selection.index
  filter := selection.filter
  names := selection.names
  values := selection.attributeValues

end Selection

/-- How a filter is read. -/
inductive Plan where
  /-- A read of one partition. -/
  | query (selection : Selection)
  /-- A read of the whole table. -/
  | scan (selection : Selection)

namespace Plan

def selection : Plan → Selection
  | query selection | scan selection => selection

def isQuery : Plan → Bool
  | query _ => true
  | scan _ => false

/-- The request for the page after a key, the first page for the empty key. -/
def request (plan : Plan) (table : String) (startKey : Item) : Request :=
  match plan with
  | query selection => .query { selection.toQuery table with startKey }
  | scan selection => .scan { selection.toScan table with startKey }

end Plan

end KeyedStore
