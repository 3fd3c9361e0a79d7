import KeyedStore.Store.Request

/-!
# Answers

What a store answers to each request. Queries and scans are both answered with a page of items.
-/
namespace KeyedStore

/-- A page of table names. -/
structure TableNames where
  names : List String := []
  last : Option String := none

/-- The description of a table, or nothing. -/
structure TableAnswer where
  table : Option TableDescription := none

/-- An item, or nothing. -/
structure ItemAnswer where
  item : Option Item := none

/-- A page of items. -/
structure ItemPage where
  items : List Item := []
  count : Int := 0
  scannedCount : Int := 0
  lastKey : Option Item := none

/-- The key to continue after. An empty one ends the reading like an absent one. -/
def ItemPage.next (page : ItemPage) : Option Item := page.lastKey.filter fun key => !key.isEmpty

/-- The type of the answer to a request. -/
def Request.Answer : Request → Type
  | .listTables _ => TableNames
  | .createTable _ | .describeTable _ => TableAnswer
  | .getItem _ | .putItem _ | .updateItem _ | .deleteItem _ => ItemAnswer
  | .query _ | .scan _ => ItemPage

/-- The answer that says nothing. -/
def Request.emptyAnswer : (request : Request) → request.Answer
  | .listTables _ => ({} : TableNames)
  | .createTable _ | .describeTable _ => ({} : TableAnswer)
  | .getItem _ | .putItem _ | .updateItem _ | .deleteItem _ => ({} : ItemAnswer)
  | .query _ | .scan _ => ({} : ItemPage)

/-- The request for the page of items that follows an answer, if one does. -/
def Request.following? (request : Request) (answer : request.Answer) : Option Request :=
  match request, answer with
  | .query reading, (page : ItemPage) =>
    page.lastKey.map fun startKey => .query { reading with startKey }
  | .scan reading, (page : ItemPage) =>
    page.lastKey.map fun startKey => .scan { reading with startKey }
  | _, _ => none

end KeyedStore
