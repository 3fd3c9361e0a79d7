import KeyedStore.Attribute.Value
import KeyedStore.Json.Basic
import KeyedStore.Text.Base64

/-!
# Attribute values and JSON

Callers hold data as JSON. Going to attribute values, numbers keep their decimal text and null
becomes the null marker. Coming back, integers stay integers, other numbers become floating point
values, binaries become base64 text and sets become arrays.
-/
namespace KeyedStore

mutual

/-- The attribute value that holds a JSON value. -/
def Json.toAttribute : Json → AttributeValue
  | .null => .null true
  | .bool b => .bool b
  | .num n => .number (String.ofList n.text)
  | .str s => .string s
  | .arr elements => .list (elementsToAttributes elements)
  | .obj entries => .map (Record.toItem entries)

def elementsToAttributes : List Json → List AttributeValue
  | [] => []
  | element :: rest => element.toAttribute :: elementsToAttributes rest

/-- The item that holds a record. -/
def Record.toItem : List (String × Json) → List (String × AttributeValue)
  | [] => []
  | (name, json) :: rest => OrderedMap.insert (Record.toItem rest) name json.toAttribute

end

/-- The JSON value of a decimal text: an integer if it is one that fits 64 bits, else a finite
floating point value, else the text itself. -/
def numberToJson (text : String) : Json :=
  let chars := text.toList
  let integer := (readInt64? chars).or ((readNatBelow? (Nat.pow 2 64) chars).map (·))
  match (integer.bind Number.ofInt?).or ((Binary64.read? chars).bind Number.ofBinary64?) with
  | some number => .num number
  | none => .str text

mutual

/-- The JSON value of an attribute value. -/
def AttributeValue.toJson : AttributeValue → Json
  | .string text => .str text
  | .number text => numberToJson text
  | .binary bytes => .str (Text.Base64.encode bytes)
  | .stringSet members => .arr (members.map .str)
  | .numberSet members => .arr (members.map numberToJson)
  | .binarySet members => .arr (members.map fun bytes => .str (Text.Base64.encode bytes))
  | .bool b => .bool b
  | .null _ => .null
  | .list elements => .arr (elementsToJson elements)
  | .map entries => .obj (Item.toRecord entries)

def elementsToJson : List AttributeValue → List Json
  | [] => []
  | element :: rest => element.toJson :: elementsToJson rest

/-- The record of an item, in the order of its attribute names. -/
def Item.toRecord : List (String × AttributeValue) → List (String × Json)
  | [] => []
  | (name, value) :: rest => (name, value.toJson) :: Item.toRecord rest

end

namespace AttributeValue

/-- The floating point value of a number value, if its text is a numeral. -/
def binary64? : AttributeValue → Option Binary64
  | number text => Binary64.read? text.toList
  | _ => none

end AttributeValue

end KeyedStore
