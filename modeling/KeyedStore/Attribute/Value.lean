import KeyedStore.OrderedMap
import KeyedStore.Text.Quoted

/-!
# Attribute values

The values that a table stores: scalars, sets, lists and maps. Numbers are kept as decimal text, so
that no digit is lost; an item is a map from attribute names to values.
-/
namespace KeyedStore

/-- A value of an attribute. -/
inductive AttributeValue where
  | string (text : String)
  | number (text : String)
  | binary (bytes : List UInt8)
  | stringSet (members : List String)
  | numberSet (members : List String)
  | binarySet (members : List (List UInt8))
  | bool (b : Bool)
  | null (b : Bool)
  | list (elements : List AttributeValue)
  | map (entries : List (String × AttributeValue))

/-- A stored item: attribute names and their values. -/
abbrev Item := OrderedMap String AttributeValue

namespace AttributeValue

/-- The tag that tells the type of a value. -/
def typeTag : AttributeValue → String
  | string _ => "S"
  | number _ => "N"
  | binary _ => "B"
  | stringSet _ => "SS"
  | numberSet _ => "NS"
  | binarySet _ => "BS"
  | bool _ => "BOOL"
  | null _ => "NULL"
  | list _ => "L"
  | map _ => "M"

/-- The text of a string value. -/
def string? : AttributeValue → Option String
  | string text => some text
  | _ => none

/-- The decimal text of a number value. -/
def number? : AttributeValue → Option String
  | number text => some text
  | _ => none

/-- Whether the value is the null marker. -/
def isNull : AttributeValue → Bool
  | null b => b
  | _ => false

/-- A list of quoted texts between brackets. -/
def quotedList (texts : List String) : String :=
  "[" ++ ", ".intercalate (texts.map Text.quoted) ++ "]"

/-- The short text of a value that messages show. -/
def display : AttributeValue → String
  | string text => Text.quoted text
  | number text => text
  | binary bytes => s!"<{bytes.length} bytes>"
  | stringSet members => "SS" ++ quotedList members
  | numberSet members => "NS" ++ quotedList members
  | binarySet members => s!"BS<{members.length} items>"
  | bool b => if b then "true" else "false"
  | null _ => "null"
  | list elements => s!"L<{elements.length} items>"
  | map entries => s!"M<{entries.length} keys>"

end AttributeValue

end KeyedStore
