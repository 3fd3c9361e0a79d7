import KeyedStore.Filter.Basic
import KeyedStore.Key.Coercion
import KeyedStore.Plan.Basic

/-!
# Compiling filters

Each condition of a filter is rendered over placeholders, and the key roles of its attribute
decide what it may become. A bare equality on a hash key can select a partition, a comparison on a
range key can narrow it; all else is applied after the read. `Schema.plan` reads a partition if
one can be selected and scans the table otherwise.
-/
namespace KeyedStore

/-- The key role of an attribute in a filter; the table has no index. -/
inductive AttributeRole where
  | hash (index : Option Index)
  | range (index : Option Index)
  | plain

/-- What a rendered condition may become. -/
inductive Slot where
  | filter
  | hash (index : Option Index)
  | range (index : Option Index)

/-- A rendered condition. -/
structure Fragment where
  condition : Expr
  slot : Slot

namespace Schema

/-- The role of an attribute: hash key or range key of the table, hash key of a global index, range
key of a local index, or range key of the last global index whose hash key the filter also
restricts. -/
def role (schema : Schema) (filter : Filter) (name : String) : AttributeRole :=
  if name = schema.hashKey then .hash none
  else if schema.rangeKey = some name then .range none
  else
    match schema.globalIndexes.get? name, schema.localIndexes.get? name with
    | some index, _ => .hash (some index)
    | none, some index => .range (some index)
    | none, none =>
      let ranged := schema.globalIndexes.values.reverse.find? fun index =>
        index.rangeKey = some name && (filter.condition? index.hashKey).isSome
      match ranged with
      | some index => .range (some index)
      | none => .plain

/-- Whether an attribute belongs to the key of the table or of an index. -/
def isIndexed (schema : Schema) (name : String) : Bool :=
  schema.isKey name || schema.localIndexes.contains name ||
    schema.globalIndexes.values.any fun index =>
      index.hashKey == name || index.rangeKey == some name

/-- Brings a value to the declared type of its attribute; one that does not convert is kept. -/
def bind (schema : Schema) (name : String) (value : Json) : Json :=
  match schema.type? name, value with
  | some .date, .str text => (dateToJson? text).getD value
  | some .date, _ => value
  | some .boolean, _ =>
    if schema.isIndexed name then (coerceKey name .boolean value).toOption.getD value else value
  | some type, _ => (coerceKey name type value).toOption.getD value
  | none, _ => value

/-- Binds a value to a new placeholder. -/
def bindValue (schema : Schema) (placeholders : Placeholders) (name suffix : String)
    (value : Json) : Operand × Placeholders :=
  let (placeholder, placeholders) := placeholders.value name suffix (schema.bind name value)
  (.value placeholder, placeholders)

/-- Binds the members of a set, numbered from a start. -/
def bindMembers (schema : Schema) (name : String) :
    Placeholders → Nat → List Json → List Operand × Placeholders
  | placeholders, _, [] => ([], placeholders)
  | placeholders, n, value :: rest =>
    let (operand, placeholders) := schema.bindValue placeholders name s!"_{n}" value
    let (operands, placeholders) := bindMembers schema name placeholders (n + 1) rest
    (operand :: operands, placeholders)

/-- An attribute compared with a value. -/
def renderCompare (schema : Schema) (placeholders : Placeholders) (name : String)
    (op : Comparison) (value : Json) : Expr × Placeholders :=
  let (path, placeholders) := placeholders.name name
  let (operand, placeholders) := schema.bindValue placeholders name "" value
  (.compare (.path path) op operand, placeholders)

/-- An attribute between two values. -/
def renderBetween (schema : Schema) (placeholders : Placeholders) (name : String)
    (first last : Json) : Expr × Placeholders :=
  let (path, placeholders) := placeholders.name name
  let (low, placeholders) := schema.bindValue placeholders name "_start" first
  let (high, placeholders) := schema.bindValue placeholders name "_end" last
  (.between (.path path) low high, placeholders)

/-- An attribute equal to one of several values, of which there must be one. -/
def renderMember (schema : Schema) (placeholders : Placeholders) (name : String)
    (values : List Json) : Except InputError (Expr × Placeholders) :=
  if values.isEmpty then .error (.emptySet name)
  else
    let (path, placeholders) := placeholders.name name
    let (operands, placeholders) := schema.bindMembers name placeholders 0 values
    .ok (.member (.path path) operands, placeholders)

end Schema

/-- The comparison that an operator asks for. -/
def Operator.comparison : Operator → Comparison
  | eq => .eq
  | neq => .ne
  | lt => .lt
  | lte => .le
  | gt => .gt
  | gte => .ge

namespace Schema

/-- A condition applied after the read. -/
def renderFilter (schema : Schema) (placeholders : Placeholders) (name : String) :
    Condition → Except InputError (Expr × Placeholders)
  | .equals value => .ok (schema.renderCompare placeholders name .eq value)
  | .operator op value => .ok (schema.renderCompare placeholders name op.comparison value)
  | .range first last => .ok (schema.renderBetween placeholders name first last)
  | .inSet values | .list values => schema.renderMember placeholders name values

/-- A condition on a sort key, if it can be part of a key condition. -/
def renderSortKey? (schema : Schema) (placeholders : Placeholders) (name : String) :
    Condition → Option (Expr × Placeholders)
  | .equals value => some (schema.renderCompare placeholders name .eq value)
  | .operator .neq _ => none
  | .operator op value => some (schema.renderCompare placeholders name op.comparison value)
  | .range first last | .list [first, last] =>
    some (schema.renderBetween placeholders name first last)
  | .list _ | .inSet _ => none

/-- Renders a condition and decides what it may become. -/
def renderFragment (schema : Schema) (filter : Filter) (placeholders : Placeholders) (name : String)
    (condition : Condition) : Except InputError (Fragment × Placeholders) :=
  let filtered : Except InputError (Fragment × Placeholders) := do
    let (expr, placeholders) ← schema.renderFilter placeholders name condition
    .ok (⟨expr, .filter⟩, placeholders)
  match schema.role filter name, condition with
  | .hash index, .equals value =>
    let (expr, placeholders) := schema.renderCompare placeholders name .eq value
    .ok (⟨expr, .hash index⟩, placeholders)
  | .range index, condition =>
    match schema.renderSortKey? placeholders name condition with
    | some (expr, placeholders) => .ok (⟨expr, .range index⟩, placeholders)
    | none => filtered
  | _, _ => filtered

/-- Renders conditions in order. -/
def renderFragments (schema : Schema) (filter : Filter) :
    Placeholders → List (String × Condition) → Except InputError (List Fragment × Placeholders)
  | placeholders, [] => .ok ([], placeholders)
  | placeholders, (name, condition) :: rest => do
    let (fragment, placeholders) ← schema.renderFragment filter placeholders name condition
    let (fragments, placeholders) ← renderFragments schema filter placeholders rest
    .ok (fragment :: fragments, placeholders)

/-- Renders conditions in order as filters. -/
def renderFilters (schema : Schema) :
    Placeholders → List (String × Condition) → Except InputError (List Expr × Placeholders)
  | placeholders, [] => .ok ([], placeholders)
  | placeholders, (name, condition) :: rest => do
    let (expr, placeholders) ← schema.renderFilter placeholders name condition
    let (exprs, placeholders) ← renderFilters schema placeholders rest
    .ok (expr :: exprs, placeholders)

end Schema

namespace Fragment

/-- Whether a condition on a sort key fits the partition that is read. -/
def fits (hash range : Option Index) : Bool :=
  match hash, range with
  | none, none => true
  | none, some index => index.kind = .localIndex
  | some hash, some index => hash.name == index.name
  | some _, none => false

/-- The places of the fragments that a test accepts. -/
def places (test : Fragment → Bool) (fragments : List Fragment) : List Nat :=
  (fragments.zipIdx.filter fun entry => test entry.1).map (·.2)

/-- The first preferred place, or else the last possible one. -/
def choose (preferred possible : List Nat) : Option Nat := preferred.head?.or possible.getLast?

/-- The place of the condition that selects the partition: that on the hash key of the table, or
else the last one on the hash key of an index. -/
def hashPlace (fragments : List Fragment) : Option Nat :=
  choose (places (fun f => f.slot matches .hash none) fragments)
    (places (fun f => f.slot matches .hash _) fragments)

/-- The place of the condition that narrows the partition: that on the range key of the table, or
else the last one that fits. -/
def rangePlace (hash : Option Index) (fragments : List Fragment) : Option Nat :=
  let fitting := places (fun f => match f.slot with
    | .range index => fits hash index
    | _ => false) fragments
  let ofTable := places (fun f => hash.isNone && f.slot matches .range none) fragments
  choose ofTable fitting

/-- The index of the slot at a place. -/
def indexAt (fragments : List Fragment) (place : Option Nat) : Option Index := do
  match (← fragments[← place]?).slot with
  | .hash index | .range index => index
  | .filter => none

/-- Distributes rendered conditions over the key condition and the filter. -/
def select (fragments : List Fragment) (placeholders : Placeholders) : Selection :=
  let hashPlace := hashPlace fragments
  let hashIndex := indexAt fragments hashPlace
  let rangePlace := hashPlace.bind fun _ => rangePlace hashIndex fragments
  let rangeIndex := indexAt fragments rangePlace
  let conditionAt (place : Option Nat) : Option Expr := do
    return (← fragments[← place]?).condition
  let rest := fragments.zipIdx.filter fun entry =>
    some entry.2 != hashPlace && some entry.2 != rangePlace
  { index := (hashIndex.or rangeIndex).map (·.name)
    hashCondition := conditionAt hashPlace
    rangeCondition := conditionAt rangePlace
    filters := rest.map (·.1.condition)
    names := placeholders.names
    values := placeholders.values }

end Fragment

namespace Schema

/-- Compiles a filter for a query. Without a hash condition it cannot be run as one. -/
def compileQuery (schema : Schema) (filter : Filter) : Except InputError Selection := do
  let (fragments, placeholders) ← schema.renderFragments filter {} filter.conditions
  .ok (Fragment.select fragments placeholders)

/-- Compiles a filter for a scan. -/
def compileScan (schema : Schema) (filter : Filter) : Except InputError Selection := do
  let (filters, placeholders) ← schema.renderFilters {} filter.conditions
  .ok { filters, names := placeholders.names, values := placeholders.values }

/-- Plans how a filter is read. -/
def plan (schema : Schema) (filter : Filter) : Except InputError Plan := do
  let query ← schema.compileQuery filter
  if query.hashCondition.isSome then .ok (.query query)
  else return .scan (← schema.compileScan filter)

end Schema

end KeyedStore
