import KeyedStore.Filter.Condition
import KeyedStore.Text.Blank

/-!
# Filters

A filter says which records are wanted, in which order, which window of them, and which relations
are loaded with them.
-/
namespace KeyedStore

/-- A field to sort by, and the direction. -/
structure SortTerm where
  field : String
  descending : Bool
  deriving DecidableEq

namespace SortTerm

/-- Reads a field name with an optional direction after white space. -/
def read? (text : String) : Option SortTerm :=
  match Text.words text.toList with
  | [] => none
  | [field] => some ⟨String.ofList field, false⟩
  | field :: direction :: _ =>
    some ⟨String.ofList field, direction.map Char.toLower = "desc".toList⟩

/-- Reads sort terms separated by commas, and skips empty ones. -/
def readList (text : String) : List SortTerm := (text.splitOn ",").filterMap read?

end SortTerm

/-- What a caller asks for. -/
structure Filter where
  /-- The conditions, in the order in which they were given. -/
  conditions : List (String × Condition) := []
  order : List SortTerm := []
  limit : Option Nat := none
  offset : Nat := 0
  /-- Reading stops once so many items have been found. -/
  minResults : Option Nat := none
  /-- The relations to load. -/
  relations : Option Json := none

namespace Filter

/-- A count that is not zero. -/
def positive (n : Nat) : Option Nat := if 0 < n then some n else none

/-- A count: a natural number, or a floating point value that equals one of 32 bits. Null is no
count, and anything else is no answer. -/
def count? : Json → Option (Option Nat)
  | .null => some none
  | .num n =>
    match n.nat? with
    | some count => some (some count)
    | none => ((n.toBinary64.toNat?).filter (· < Nat.pow 2 32)).map some
  | _ => none

/-- The conditions of a filter object. -/
def conditionsOfJson : Option Json → Except InputError (List (String × Condition))
  | none | some .null => .ok []
  | some (.obj conditions) =>
    conditions.mapM fun entry => return (entry.1, ← Condition.ofJson entry.1 entry.2)
  | some other => .error (.invalidFilter ("`where` must be an object, got " ++ other.compact))

/-- The sort terms of a filter object. -/
def orderOfJson : Option Json → Except InputError (List SortTerm)
  | none | some .null => .ok []
  | some (.str text) => .ok (SortTerm.readList text)
  | some (.arr entries) => do
    let terms ← entries.mapM fun entry =>
      match entry with
      | .str text => .ok (SortTerm.read? text)
      | other => .error (.invalidFilter ("`order` entries must be strings, got " ++ other.compact))
    return terms.filterMap id
  | some other =>
    .error (.invalidFilter ("`order` must be a string or a list, got " ++ other.compact))

/-- A count under a key of a filter object. -/
def countOfJson (invalid : String → InputError) : Option Json → Except InputError (Option Nat)
  | none => .ok none
  | some json =>
    match count? json with
    | some count => .ok count
    | none => .error (invalid json.compact)

/-- Reads a filter object; null is the empty filter. -/
def ofJson : Json → Except InputError Filter
  | .null => .ok {}
  | .obj entries => do
    let get? := Record.get? entries
    let conditions ← conditionsOfJson (get? "where")
    let order ← orderOfJson (get? "order")
    let limit ← countOfJson .invalidLimit (get? "limit")
    let offset ← countOfJson .invalidOffset ((get? "offset").or (get? "skip"))
    let minResults ← countOfJson .invalidMinResults (get? "minResults")
    return {
      conditions, order
      limit := limit.bind positive
      offset := offset.getD 0
      minResults := minResults.bind positive
      relations := (get? "include").filter fun json => !json.isNull }
  | other => .error (.invalidFilter ("filter must be an object, got " ++ other.compact))

/-- Adds a condition. -/
def withCondition (filter : Filter) (name : String) (condition : Condition) : Filter :=
  { filter with conditions := filter.conditions ++ [(name, condition)] }

/-- Adds a bare equality. -/
def withEqual (filter : Filter) (name : String) (value : Json) : Filter :=
  filter.withCondition name (.equals value)

/-- Adds sort terms separated by commas. -/
def withOrder (filter : Filter) (text : String) : Filter :=
  { filter with order := filter.order ++ SortTerm.readList text }

def withLimit (filter : Filter) (limit : Nat) : Filter := { filter with limit := positive limit }

def withOffset (filter : Filter) (offset : Nat) : Filter := { filter with offset }

def withMinResults (filter : Filter) (count : Nat) : Filter :=
  { filter with minResults := positive count }

/-- The conditions alone. -/
def whereOnly (filter : Filter) : Filter := { conditions := filter.conditions }

/-- The first condition on an attribute. -/
def condition? (filter : Filter) (name : String) : Option Condition :=
  (filter.conditions.find? fun entry => entry.1 == name).map (·.2)

end Filter

end KeyedStore
