import KeyedStore.Json.Writer
import KeyedStore.Model.Schema
import KeyedStore.Text.Blank
import KeyedStore.Time.Timestamp

/-!
# Coercion of key values

A key value is brought to the declared type of its attribute: numbers and dates may be given as
text, and booleans and numbers become text where the attribute holds text.
-/
namespace KeyedStore

/-- Why the keys of a record or an identifier cannot be used. -/
inductive ValidationError where
  | missingHash (model name : String)
  | nullHash (model name : String)
  | missingRange (model name : String)
  | invalidKey (name reason : String)
  deriving DecidableEq

/-- The text of a validation error. -/
def ValidationError.message : ValidationError → String
  | missingHash model name => s!"model {model}: hash key `{name}` is missing"
  | nullHash model name => s!"model {model}: hash key `{name}` cannot be null"
  | missingRange model name => s!"model {model}: range key `{name}` is missing"
  | invalidKey name reason => s!"invalid value for key `{name}`: {reason}"

/-- The text of a value inside a composite identifier: a string itself, any other value as JSON. -/
def Json.keyText : Json → String
  | .str s => s
  | other => other.compact

/-- Milliseconds since 1970 of a timestamp or of an integer in text. -/
def dateMillis? (text : String) : Option Int :=
  let chars := Text.trim text.toList
  (Timestamp.read? chars).or (readInt64? chars)

/-- The JSON number of a date in text. -/
def dateToJson? (text : String) : Option Json :=
  ((dateMillis? text).bind Number.ofInt?).map Json.num

/-- The JSON number of an integer in text, white space around it ignored. -/
def integerToJson? (text : String) : Option Json :=
  ((readInt64? (Text.trim text.toList)).bind Number.ofInt?).map Json.num

/-- Brings a key value to a declared type. -/
def coerceKey (name : String) (type : PropertyType) (raw : Json) : Except ValidationError Json :=
  let invalid (reason : String) : Except ValidationError Json := .error (.invalidKey name reason)
  match type, raw with
  | _, .null => .ok raw
  | .json, _ => .ok raw
  | .number, .num _ | .date, .num _ => .ok raw
  | .number, .str s => ((integerToJson? s).map .ok).getD (invalid s!"`{s}` is not an integer")
  | .date, .str s => ((dateToJson? s).map .ok).getD (invalid s!"`{s}` is not a date")
  | .string, .str _ | .boolean, .str _ => .ok raw
  | .string, .num _ | .string, .bool _ | .boolean, .num _ | .boolean, .bool _ =>
    .ok (.str raw.keyText)
  | _, _ => invalid ("cannot use " ++ raw.compact ++ " as a " ++ type.name ++ " key")

/-- Brings a key value to the declared type of an attribute, if it has one. -/
def Schema.coerce (schema : Schema) (name : String) (raw : Json) : Except ValidationError Json :=
  match schema.type? name with
  | some type => coerceKey name type raw
  | none => .ok raw

/-- Writes the dates of a record as milliseconds. Texts that are no dates stay as they are. -/
def Schema.coerceDates (schema : Schema) (record : Record) : Record :=
  record.map fun (name, value) =>
    match schema.type? name, value with
    | some .date, .str s => (name, (dateToJson? s).getD value)
    | _, _ => (name, value)

end KeyedStore
