import KeyedStore.Attribute.Value
import KeyedStore.Numeric.Decimal
import KeyedStore.Table.Description

/-!
# Key values

The values that keys are made of, with a total order: texts come first, by code points, then
numbers, then binaries, byte by byte. Numbers are ordered as floating point values, so that
spellings of one value are one key; a text that is no numeral stands for what is not a number.
-/
namespace KeyedStore

/-- Why an item cannot be stored or a key schema cannot be used. -/
inductive StorageError where
  | missingKey (name : String)
  | invalidKeyType (name expected actual : String)
  | invalidKeySchema (hashes : Nat)
  | undefinedKey (name : String)
  deriving DecidableEq

/-- The text of a storage error. -/
def StorageError.message : StorageError → String
  | missingKey name => "One of the required keys was not given a value: " ++ name
  | invalidKeyType name expected actual =>
    s!"Type mismatch for key {name}: expected {expected}, got {actual}"
  | invalidKeySchema hashes =>
    s!"Key schema must contain exactly one HASH element, found {hashes}"
  | undefinedKey name => "No attribute definition for key attribute " ++ name

/-- A value of a key. -/
inductive KeyValue where
  | string (text : String)
  | number (text : String)
  | binary (bytes : List UInt8)
  /-- Stands in the place of the range in tables without one. -/
  | sentinel
  deriving DecidableEq

namespace KeyValue

/-- The key value that an attribute value is. -/
def ofAttribute (name : String) : AttributeValue → Except StorageError KeyValue
  | .string text => .ok (string text)
  | .number text => .ok (number text)
  | .binary bytes => .ok (binary bytes)
  | other => .error (.invalidKeyType name "S, N, or B" other.typeTag)

/-- The floating point value by which a number is ordered. -/
def numeral (text : String) : Binary64 := (Binary64.read? text.toList).getD (.nan false)

/-- The place of a type among the others. -/
def rank : KeyValue → Nat
  | string _ => 0
  | number _ => 1
  | binary _ => 2
  | sentinel => 3

/-- The order of key values. -/
def order : KeyValue → KeyValue → Ordering
  | string a, string b => compare a b
  | number a, number b => (numeral a).totalCompare (numeral b)
  | binary a, binary b => compare a b
  | a, b => compare a.rank b.rank

instance : Ord KeyValue := ⟨order⟩

/-- Whether two values are the same key. -/
def same (a b : KeyValue) : Bool := a.order b == .eq

end KeyValue

/-- The key of an item: its hash value and, where the table has one, its range value. -/
structure PrimaryKey where
  partition : KeyValue
  sort : Option KeyValue
  deriving DecidableEq

/-- The order of optional values, in which nothing comes first. -/
def compareOptions {α : Type} [Ord α] : Option α → Option α → Ordering
  | none, none => .eq
  | none, some _ => .lt
  | some _, none => .gt
  | some a, some b => compare a b

namespace PrimaryKey

/-- The order of keys: by hash value, then by range value. -/
def order (a b : PrimaryKey) : Ordering :=
  (compare a.partition b.partition).then (compareOptions a.sort b.sort)

instance : Ord PrimaryKey := ⟨order⟩

/-- The place of an item in its partition. -/
def place (key : PrimaryKey) : KeyValue := key.sort.getD .sentinel

end PrimaryKey

/-- A condition on the range value of an item. -/
inductive SortCondition where
  | eq (value : KeyValue)
  | lt (value : KeyValue)
  | le (value : KeyValue)
  | gt (value : KeyValue)
  | ge (value : KeyValue)
  | between (low high : KeyValue)
  | beginsWith (text : String)
  deriving DecidableEq

/-- Whether a range value meets a condition. -/
def SortCondition.accepts (condition : SortCondition) (value : KeyValue) : Bool :=
  match condition with
  | eq other => (compare value other).isEq
  | lt other => (compare value other).isLT
  | le other => (compare value other).isLE
  | gt other => (compare value other).isGT
  | ge other => (compare value other).isGE
  | between low high => (compare value low).isGE && (compare value high).isLE
  | beginsWith start =>
    match value with
    | .string text => start.toList.isPrefixOf text.toList
    | _ => false

end KeyedStore
