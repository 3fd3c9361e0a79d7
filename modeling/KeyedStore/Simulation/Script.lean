import KeyedStore.Store.Error
import KeyedStore.Store.Wire

/-!
# Scripts

A script says what a simulated store answers to each operation, one reply after another. A reply is
written as the wire form of an answer, or as an object that holds the code and the text of an error.
-/
namespace KeyedStore

/-- A scripted answer. -/
inductive Reply where
  | failure (error : StoreError)
  | names (answer : TableNames)
  | table (answer : TableAnswer)
  | item (answer : ItemAnswer)
  | page (answer : ItemPage)

/-- The answer to a request that a reply stands for; one to another kind of request says nothing. -/
def Reply.answer (reply : Reply) (request : Request) : Except StoreError request.Answer :=
  match reply, request with
  | .failure error, _ => .error error
  | .names answer, .listTables _ => .ok answer
  | .table answer, .createTable _ | .table answer, .describeTable _ => .ok answer
  | .item answer, .getItem _ | .item answer, .putItem _ | .item answer, .updateItem _
  | .item answer, .deleteItem _ => .ok answer
  | .page answer, .query _ | .page answer, .scan _ => .ok answer
  | _, request => .ok request.emptyAnswer

namespace Reply

/-- The error with a code and, where there is one, a text. -/
def failureOfWire : Decoder Reply
  | .arr (.str code :: detail) => do
    let code ← Decoder.ofOption (StoreErrorCode.ofName? code)
    match detail.head?.bind Json.str? with
    | some detail => .ok (.failure { code, detail })
    | none => .ok (.failure (.ofCode code))
  | _ => .error .malformed

/-- The reply to an operation that a wire form stands for. -/
def ofWire (operation : String) : Decoder Reply := fun json =>
  match json.get? "error", operation with
  | some error, _ => failureOfWire error
  | none, "ListTables" => names <$> TableNames.ofWire json
  | none, "CreateTable" => table <$> TableAnswer.ofWire "TableDescription" json
  | none, "DescribeTable" => table <$> TableAnswer.ofWire "Table" json
  | none, "GetItem" => item <$> ItemAnswer.ofWire "Item" json
  | none, "Query" | none, "Scan" => page <$> ItemPage.ofWire json
  | none, _ => item <$> ItemAnswer.ofWire "Attributes" json

end Reply

end KeyedStore
