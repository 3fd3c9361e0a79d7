import KeyedStore.Attribute.Value
import KeyedStore.Text.Base64
import KeyedStore.Wire.Decoder

/-!
# Wire form of attribute values

On the wire a value is an object with its type tag as the only key. Binaries are written in base64.
Decoding accepts exactly the objects that encoding writes, with the entries of maps in any order.
-/
namespace KeyedStore.AttributeValue

mutual

/-- The wire form of a value. -/
def toWire : AttributeValue → Json
  | string text => .obj [("S", .str text)]
  | number text => .obj [("N", .str text)]
  | binary bytes => .obj [("B", .str (Text.Base64.encode bytes))]
  | stringSet members => .obj [("SS", .arr (members.map .str))]
  | numberSet members => .obj [("NS", .arr (members.map .str))]
  | binarySet members => .obj [("BS", .arr (members.map fun b => .str (Text.Base64.encode b)))]
  | bool b => .obj [("BOOL", .bool b)]
  | null b => .obj [("NULL", .bool b)]
  | list elements => .obj [("L", .arr (listToWire elements))]
  | map entries => .obj [("M", .obj (entriesToWire entries))]

def listToWire : List AttributeValue → List Json
  | [] => []
  | value :: rest => toWire value :: listToWire rest

def entriesToWire : List (String × AttributeValue) → Record
  | [] => []
  | (name, value) :: rest => (name, toWire value) :: entriesToWire rest

end

/-- The bytes written by a base64 string. -/
def decodeBinary : Decoder (List UInt8) := fun json => do
  Decoder.ofOption (Text.Base64.decode? (← Decoder.string json))

mutual

/-- The value that a wire form stands for. -/
def ofWire : Decoder AttributeValue
  | .obj [] => .error .noTypeTag
  | .obj ((tag, payload) :: rest) => do
    let value ← ofPayload tag payload
    if rest.isEmpty then .ok value else .error .severalTypeTags
  | _ => .error .malformed

/-- The value under a type tag. -/
def ofPayload (tag : String) (payload : Json) : Except DecodeError AttributeValue :=
  match tag with
  | "S" => string <$> Decoder.string payload
  | "N" => number <$> Decoder.string payload
  | "B" => binary <$> decodeBinary payload
  | "SS" => stringSet <$> Decoder.list Decoder.string payload
  | "NS" => numberSet <$> Decoder.list Decoder.string payload
  | "BS" => do
    let texts ← Decoder.list Decoder.string payload
    binarySet <$> texts.mapM fun text => Decoder.ofOption (Text.Base64.decode? text)
  | "BOOL" => bool <$> Decoder.bool payload
  | "NULL" => null <$> Decoder.bool payload
  | "L" =>
    match payload with
    | .arr elements => list <$> listOfWire elements
    | _ => .error .malformed
  | "M" =>
    match payload with
    | .obj entries => map <$> entriesOfWire entries
    | _ => .error .malformed
  | other => .error (.unknownTypeTag other)

def listOfWire : List Json → Except DecodeError (List AttributeValue)
  | [] => .ok []
  | json :: rest => do
    let value ← ofWire json
    let values ← listOfWire rest
    .ok (value :: values)

def entriesOfWire : Record → Except DecodeError (OrderedMap String AttributeValue)
  | [] => .ok []
  | (name, json) :: rest => do
    let value ← ofWire json
    let values ← entriesOfWire rest
    .ok (OrderedMap.insert values name value)

end

end KeyedStore.AttributeValue

namespace KeyedStore.Item

/-- The wire form of an item. -/
def toWire (item : Item) : Json := .obj (AttributeValue.entriesToWire item)

/-- The item that a wire form stands for. -/
def ofWire : Decoder Item
  | .obj entries => AttributeValue.entriesOfWire entries
  | _ => .error .malformed

end KeyedStore.Item
