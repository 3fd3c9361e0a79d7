import KeyedStore.Expression.Evaluation
import KeyedStore.Memory.KeySchema
import KeyedStore.Store.Error

/-!
# Key conditions

The condition of a query, resolved against the key of the table or index that is read: the hash
value of a partition, and a condition on the range value where there is one.
-/
namespace KeyedStore

/-- The error of an expression as the store reports it. -/
def ExpressionError.toStoreError (error : ExpressionError) : StoreError :=
  .validation ("Invalid expression: " ++ error.message)

/-- The error of the storage as the store reports it. -/
def StorageError.toStoreError (error : StorageError) : StoreError := .validation error.message

/-- The terms of nested conjunctions, from the left. -/
def Expr.conjuncts : Expr → List Expr
  | .and left right => left.conjuncts ++ right.conjuncts
  | other => [other]

/-- A condition on the key of items. -/
structure KeyCondition where
  partition : KeyValue
  sort : Option SortCondition
  deriving DecidableEq

namespace KeyCondition

/-- The key value that a placeholder stands for. -/
def keyValue (bindings : Bindings) (name : String) (operand : Operand) :
    Except StoreError KeyValue := do
  match ← (bindings.operand [] operand).mapError ExpressionError.toStoreError with
  | some value => (KeyValue.ofAttribute name value).mapError StorageError.toStoreError
  | none => throw (.validation "Key condition value must be a placeholder")

/-- The attribute on the left of a term. -/
def keyPath (bindings : Bindings) : Operand → Except StoreError String
  | .path path => (bindings.resolve path).mapError ExpressionError.toStoreError
  | .value name =>
    .error (.validation ("Key condition must name an attribute on its left side, found " ++ name))

/-- The attribute that a term restricts, and how. -/
def ofTerm (bindings : Bindings) : Expr → Except StoreError (String × SortCondition)
  | .compare left op right => do
    let name ← keyPath bindings left
    let value ← keyValue bindings name right
    match op with
    | .eq => .ok (name, .eq value)
    | .lt => .ok (name, .lt value)
    | .le => .ok (name, .le value)
    | .gt => .ok (name, .gt value)
    | .ge => .ok (name, .ge value)
    | .ne => .error (.validation "Unsupported operator in key condition: <>")
  | .between value low high => do
    let name ← keyPath bindings value
    let low ← keyValue bindings name low
    let high ← keyValue bindings name high
    if compare low high = .gt then
      .error (.validation "Invalid KeyConditionExpression: BETWEEN bounds are out of order")
    else .ok (name, .between low high)
  | .call .beginsWith [target, start] => do
    let name ← keyPath bindings target
    match ← keyValue bindings name start with
    | .string text => .ok (name, .beginsWith text)
    | _ => .error (.validation "begins_with requires a string prefix")
  | _ =>
    .error (.validation ("Invalid KeyConditionExpression: only comparisons, BETWEEN and " ++
      "begins_with joined by AND are allowed"))

/-- What has been found among the terms of a key condition. -/
structure Found where
  partition : Option KeyValue := none
  sort : Option SortCondition := none

/-- Adds a term: the equality on the hash, or one condition on the range. -/
def Found.add (schema : KeySchema) (found : Found) (name : String) (condition : SortCondition) :
    Except StoreError Found :=
  let range :=
    if schema.sort.any (·.name == name) && found.sort.isNone then
      .ok { found with sort := some condition }
    else .error (.validation ("Query key condition not supported on attribute: " ++ name))
  match condition with
  | .eq value =>
    if name = schema.partition.name ∧ found.partition = none then
      .ok { found with partition := some value }
    else range
  | _ => range

/-- Adds a term of the expression. -/
def addTerm (schema : KeySchema) (bindings : Bindings) (found : Found) (term : Expr) :
    Except StoreError Found := do
  let (name, condition) ← ofTerm bindings term
  found.add schema name condition

/-- Resolves an expression against a key schema. -/
def resolve (schema : KeySchema) (bindings : Bindings) (expr : Expr) :
    Except StoreError KeyCondition := do
  let found ← expr.conjuncts.foldlM (addTerm schema bindings) {}
  match found.partition with
  | some partition => .ok { partition, sort := found.sort }
  | none =>
    .error (.validation ("Query condition missed key schema element: " ++ schema.partition.name))

/-- Whether an item meets a key condition. Without a condition on the range, the range attribute
must still be there. -/
def accepts (condition : KeyCondition) (schema : KeySchema) (item : Item) : Bool :=
  let hash := (schema.partition.value? item).any fun value => value.same condition.partition
  let range := match schema.sort, condition.sort with
    | some key, some sort => (key.value? item).any sort.accepts
    | some key, none => item.contains key.name
    | none, _ => true
  hash && range

end KeyCondition

end KeyedStore
