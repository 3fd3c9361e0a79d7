import KeyedStore.Json.Number

/-!
# JSON values

Objects keep their entries in the order in which they were given. A record, the form in which
callers read and write data, is the entries of an object.
-/
namespace KeyedStore

/-- A JSON value. -/
inductive Json where
  | null
  | bool (b : Bool)
  | num (n : Number)
  | str (s : String)
  | arr (elements : List Json)
  | obj (entries : List (String × Json))

/-- The entries of a JSON object, in order. -/
abbrev Record := List (String × Json)

namespace Record

/-- The value under a key. -/
def get? (record : Record) (key : String) : Option Json :=
  (record.find? fun entry => entry.1 == key).map (·.2)

/-- Sets the value under a key. A present key keeps its place; a new one goes to the end. -/
def set : Record → String → Json → Record
  | [], key, value => [(key, value)]
  | (k, v) :: rest, key, value =>
    if k == key then (k, value) :: rest else (k, v) :: set rest key value

end Record

namespace Json

def isNull : Json → Bool
  | null => true
  | _ => false

def str? : Json → Option String
  | str s => some s
  | _ => none

def bool? : Json → Option Bool
  | bool b => some b
  | _ => none

def arr? : Json → Option (List Json)
  | arr elements => some elements
  | _ => none

def obj? : Json → Option Record
  | obj entries => some entries
  | _ => none

def int64? : Json → Option Int
  | num n => n.int64?
  | _ => none

def nat? : Json → Option Nat
  | num n => n.nat?
  | _ => none

/-- The value under a key of an object. -/
def get? (json : Json) (key : String) : Option Json := json.obj?.bind (Record.get? · key)

/-- The value under a key of an object, null where there is none. -/
def field (json : Json) (key : String) : Json := (json.get? key).getD null

/-- The elements of an array; anything else has none. -/
def elements (json : Json) : List Json := json.arr?.getD []

/-- The entries of an object; anything else has none. -/
def entries (json : Json) : Record := json.obj?.getD []

/-- A value that may be absent; null stands for none. -/
def ofOption {α : Type} (encode : α → Json) (value : Option α) : Json :=
  (value.map encode).getD null

/-- An integer as a JSON number; what no JSON number can hold is written as null. -/
def ofInt (n : Int) : Json :=
  match Number.ofInt? n with
  | some number => .num number
  | none => .null

/-- A floating point value as a JSON number; what is not finite is written as null. -/
def ofBinary64 (x : Binary64) : Json :=
  match Number.ofBinary64? x with
  | some number => .num number
  | none => .null

end Json

end KeyedStore
