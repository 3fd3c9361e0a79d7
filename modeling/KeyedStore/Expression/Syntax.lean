/-!
# Expressions

Conditions over the attributes of an item, and updates of them. Attributes are named directly or
by a placeholder that starts with `#`; values always stand behind a placeholder that starts with
`:`.
-/
namespace KeyedStore

/-- What stands for a value: the name of an attribute, or a value placeholder. -/
inductive Operand where
  /-- An attribute name, or a placeholder for one with its `#`. -/
  | path (text : String)
  /-- A placeholder for a value with its `:`. -/
  | value (text : String)
  deriving DecidableEq

/-- The comparisons of two operands. -/
inductive Comparison where
  | eq
  | ne
  | lt
  | le
  | gt
  | ge
  deriving DecidableEq

/-- The functions of conditions. -/
inductive ConditionFunction where
  | attributeExists
  | attributeNotExists
  | beginsWith
  deriving DecidableEq

/-- A condition on an item. -/
inductive Expr where
  | compare (left : Operand) (op : Comparison) (right : Operand)
  /-- Both bounds are included. -/
  | between (value low high : Operand)
  | member (value : Operand) (list : List Operand)
  | and (left right : Expr)
  | or (left right : Expr)
  | not (inner : Expr)
  | call (function : ConditionFunction) (arguments : List Operand)
  deriving DecidableEq

/-- Sets an attribute to the value of an operand. -/
structure Assignment where
  path : String
  value : Operand
  deriving DecidableEq

/-- The changes an update makes. -/
structure Update where
  assignments : List Assignment := []
  removals : List String := []
  deriving DecidableEq

/-- The attributes that an update names, assigned ones first. -/
def Update.paths (update : Update) : List String :=
  update.assignments.map (·.path) ++ update.removals

def Comparison.symbol : Comparison → String
  | eq => "="
  | ne => "<>"
  | lt => "<"
  | le => "<="
  | gt => ">"
  | ge => ">="

def ConditionFunction.name : ConditionFunction → String
  | attributeExists => "attribute_exists"
  | attributeNotExists => "attribute_not_exists"
  | beginsWith => "begins_with"

def Operand.text : Operand → String
  | path text | value text => text

/-- The conjunction of a list of conditions, grouped from the left. -/
def Expr.conjunction? : List Expr → Option Expr
  | [] => none
  | first :: rest => some (rest.foldl .and first)

end KeyedStore
