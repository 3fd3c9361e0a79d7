import KeyedStore.Attribute.Equality
import KeyedStore.Attribute.Json
import KeyedStore.Expression.Token

/-!
# Evaluating expressions

The meaning of conditions and updates for an item, with the names and values that placeholders stand
for. Numbers are compared by value; values of different types are never equal and have no order.
-/
namespace KeyedStore

namespace AttributeValue

/-- The order of two scalars of one type: text by code points, numbers by value, binaries byte by
byte. -/
def compare? : AttributeValue → AttributeValue → Option Ordering
  | string a, string b => some (compare a b)
  | number a, number b => do
    (← Binary64.read? a.toList).compare? (← Binary64.read? b.toList)
  | binary a, binary b => some (compare a b)
  | _, _ => none

/-- Equality of two values: of numbers by value, of others part by part. -/
def equals : AttributeValue → AttributeValue → Bool
  | number a, number b => (number a).compare? (number b) == some .eq
  | a, b => a == b

/-- Whether a comparison holds between two values. -/
def satisfies (op : Comparison) (a b : AttributeValue) : Bool :=
  match op with
  | .eq => a.equals b
  | .ne => !a.equals b
  | .lt => (a.compare? b).any Ordering.isLT
  | .le => (a.compare? b).any Ordering.isLE
  | .gt => (a.compare? b).any Ordering.isGT
  | .ge => (a.compare? b).any Ordering.isGE

end AttributeValue

/-- What the placeholders of an expression stand for. -/
structure Bindings where
  names : OrderedMap String String := []
  values : OrderedMap String AttributeValue := []

namespace Bindings

/-- The attribute that a path names. -/
def resolve (bindings : Bindings) (path : String) : Except ExpressionError String :=
  if path.toList.head? = some '#' then
    match bindings.names.get? path with
    | some name => .ok name
    | none => .error (.unresolvedName path)
  else .ok path

/-- The value of an operand, none for an attribute that the item does not have. -/
def operand (bindings : Bindings) (item : Item) :
    Operand → Except ExpressionError (Option AttributeValue)
  | .path path => do return item.get? (← bindings.resolve path)
  | .value name =>
    match bindings.values.get? name with
    | some value => .ok (some value)
    | none => .error (.unresolvedValue name)

/-- Whether a text or binary starts with another; other values are no beginnings. -/
def beginsWith : Option AttributeValue → Option AttributeValue → Except ExpressionError Bool
  | some (.string text), some (.string start) => .ok (start.toList.isPrefixOf text.toList)
  | some (.binary bytes), some (.binary start) => .ok (start.isPrefixOf bytes)
  | _, none | _, some (.string _) | _, some (.binary _) => .ok false
  | _, some other =>
    .error (.typeMismatch ("begins_with prefix must be S or B, got " ++ other.typeTag))

/-- The number of operands a function takes. -/
def arity : ConditionFunction → Nat
  | .attributeExists | .attributeNotExists => 1
  | .beginsWith => 2

/-- The value of a function call. -/
def call (bindings : Bindings) (item : Item) (f : ConditionFunction) (arguments : List Operand) :
    Except ExpressionError Bool :=
  if arguments.length ≠ arity f then
    .error (.invalidOperand f.name s!"expected {arity f} operand(s), got {arguments.length}")
  else
    match arguments with
    | .path path :: rest => do
      let name ← bindings.resolve path
      match f, rest with
      | .attributeExists, _ => .ok (item.contains name)
      | .attributeNotExists, _ => .ok (!item.contains name)
      | .beginsWith, start :: _ => beginsWith (item.get? name) (← bindings.operand item start)
      | .beginsWith, [] => .ok false
    | _ => .error (.invalidOperand f.name "first operand must be an attribute path")

/-- Whether a value equals one of a list of operands; the first equal one ends the search. -/
def member (bindings : Bindings) (item : Item) (value : AttributeValue) :
    List Operand → Except ExpressionError Bool
  | [] => .ok false
  | candidate :: rest => do
    if (← bindings.operand item candidate).any value.equals then .ok true
    else member bindings item value rest

/-- Whether a value lies between two others, of which the first must not be the greater. -/
def between (value low high : AttributeValue) : Except ExpressionError Bool :=
  if low.compare? high = some .gt then
    .error (.invalidOperand "BETWEEN"
      ("lower bound " ++ low.display ++ " is greater than upper bound " ++ high.display))
  else .ok (value.satisfies .ge low && value.satisfies .le high)

/-- Whether a condition holds for an item. -/
def evaluate (bindings : Bindings) (item : Item) : Expr → Except ExpressionError Bool
  | .compare left op right => do
    match ← bindings.operand item left, ← bindings.operand item right with
    | some a, some b => .ok (a.satisfies op b)
    | _, _ => .ok (op == .ne)
  | .between value low high => do
    match ← bindings.operand item value, ← bindings.operand item low,
      ← bindings.operand item high with
    | some value, some low, some high => between value low high
    | _, _, _ => .ok false
  | .member value list => do
    match ← bindings.operand item value with
    | some value => bindings.member item value list
    | none => .ok false
  | .and left right => do
    if ← evaluate bindings item left then evaluate bindings item right else .ok false
  | .or left right => do
    if ← evaluate bindings item left then .ok true else evaluate bindings item right
  | .not inner => do return !(← evaluate bindings item inner)
  | .call f arguments => bindings.call item f arguments

/-- Makes the assignments of an update, whose operands are read in `item`. Answers the first error,
if there is one, and the target as far as it got. -/
def assign (bindings : Bindings) (item : Item) :
    List Assignment → Item → Option ExpressionError × Item
  | [], target => (none, target)
  | assignment :: rest, target =>
    let assigned : Except ExpressionError (String × AttributeValue) := do
      let name ← bindings.resolve assignment.path
      match ← bindings.operand item assignment.value with
      | some value => .ok (name, value)
      | none => .error (.invalidOperand "SET"
          ("attribute used in SET value does not exist: " ++ name))
    match assigned with
    | .ok (name, value) => assign bindings item rest (target.insert name value)
    | .error error => (some error, target)

/-- Removes attributes from the target of an update. -/
def remove (bindings : Bindings) : List String → Item → Option ExpressionError × Item
  | [], target => (none, target)
  | path :: rest, target =>
    match bindings.resolve path with
    | .ok name => remove bindings rest (OrderedMap.erase target name)
    | .error error => (some error, target)

/-- Applies an update to a target. The operands of assignments are read in `item`. -/
def apply (bindings : Bindings) (item : Item) (update : Update) (target : Item) :
    Option ExpressionError × Item :=
  match bindings.assign item update.assignments target with
  | (none, target) => bindings.remove update.removals target
  | failed => failed

end Bindings

end KeyedStore
