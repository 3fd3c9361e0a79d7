import KeyedStore.Json.Writer

/-!
# Conditions

A condition restricts one attribute. Its JSON form is classified once: a scalar asks for equality, a
list for a range or a set, and an object names an operator.
-/
namespace KeyedStore

/-- Why a filter cannot be used. -/
inductive InputError where
  | invalidLimit (given : String)
  | invalidOffset (given : String)
  | invalidMinResults (given : String)
  | invalidFilter (reason : String)
  /-- A set condition without members. -/
  | emptySet (name : String)
  deriving DecidableEq

/-- The text of an input error. -/
def InputError.message : InputError → String
  | invalidLimit given => "limit must be a non-negative number, got " ++ given
  | invalidOffset given => "offset must be a non-negative number, got " ++ given
  | invalidMinResults given => "minResults must be a non-negative number, got " ++ given
  | invalidFilter reason => "invalid filter: " ++ reason
  | emptySet name => s!"empty value list for `{name}`"

/-- The comparison operators of filters. -/
inductive Operator where
  | eq
  | neq
  | lt
  | lte
  | gt
  | gte
  deriving DecidableEq

namespace Operator

/-- The operator as expressions write it. -/
def symbol : Operator → String
  | eq => "="
  | neq => "<>"
  | lt => "<"
  | lte => "<="
  | gt => ">"
  | gte => ">="

/-- The operator that a key of a condition object names. -/
def ofName? : String → Option Operator
  | "eq" | "=" => some eq
  | "neq" => some neq
  | "lt" => some lt
  | "lte" => some lte
  | "gt" => some gt
  | "gte" => some gte
  | _ => none

end Operator

/-- A condition on one attribute. -/
inductive Condition where
  /-- A bare scalar. -/
  | equals (value : Json)
  | operator (op : Operator) (value : Json)
  | range (first last : Json)
  | inSet (values : List Json)
  /-- A bare list: two ends on a sort key, a set anywhere else. -/
  | list (values : List Json)

namespace Condition

/-- Classifies an operator and its operand. An unknown operator asks for equality. -/
def ofOperator (name op : String) (operand : Json) : Except InputError Condition :=
  match op with
  | "between" =>
    match operand with
    | .arr [first, last] => .ok (range first last)
    | _ => .error (.invalidFilter s!"`between` on `{name}` needs a two-element list")
  | "inq" =>
    match operand with
    | .arr values => .ok (inSet values)
    | _ => .error (.invalidFilter s!"`inq` on `{name}` needs a list")
  | other => .ok (operator ((Operator.ofName? other).getD .eq) operand)

/-- Classifies the JSON form of a condition. Of several operators only the first counts. -/
def ofJson (name : String) : Json → Except InputError Condition
  | .arr values => .ok (list values)
  | .obj [] => .error (.invalidFilter s!"empty condition object for `{name}`")
  | .obj ((op, operand) :: _) => ofOperator name op operand
  | scalar => .ok (equals scalar)

/-- Whether the condition is a bare equality, the only one that selects a partition. -/
def isBareEquality : Condition → Bool
  | equals _ => true
  | _ => false

end Condition

end KeyedStore
