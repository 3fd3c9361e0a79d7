import KeyedStore.Expression.Syntax

/-!
# Printing expressions

Writes expressions with single spaces, and with parentheses only where a tree could not be read back
without them: `NOT` binds closer than `AND`, `AND` closer than `OR`, and chains group from the left.
-/
namespace KeyedStore

/-- Texts separated by commas and spaces. -/
def commaSeparated (texts : List String) : String := ", ".intercalate texts

namespace Expr

/-- How close the outermost part of an expression binds: an alternative 0, a conjunction 1, a
negation 2 and anything else 3. -/
def level : Expr → Nat
  | or .. => 0
  | and .. => 1
  | not _ => 2
  | _ => 3

/-- Puts parentheses around the text of what binds less closely than its place demands. -/
def parenthesize (needed : Bool) (text : String) : String :=
  if needed then "(" ++ text ++ ")" else text

/-- The text of an expression. -/
def print : Expr → String
  | compare left op right => left.text ++ " " ++ op.symbol ++ " " ++ right.text
  | between value low high => value.text ++ " BETWEEN " ++ low.text ++ " AND " ++ high.text
  | member value list => value.text ++ " IN (" ++ commaSeparated (list.map Operand.text) ++ ")"
  | and left right =>
    parenthesize (left.level < 1) left.print ++ " AND " ++
      parenthesize (right.level < 2) right.print
  | or left right => left.print ++ " OR " ++ parenthesize (right.level < 1) right.print
  | not inner => "NOT " ++ parenthesize (inner.level < 2) inner.print
  | call function arguments =>
    function.name ++ "(" ++ commaSeparated (arguments.map Operand.text) ++ ")"

end Expr

namespace Update

/-- A clause of an update, left out where it has no parts. -/
def clause (keyword : String) (parts : List String) : List String :=
  if parts.isEmpty then [] else [keyword ++ " " ++ commaSeparated parts]

/-- The text of an update. -/
def print (update : Update) : String :=
  " ".intercalate <|
    clause "SET" (update.assignments.map fun a => a.path ++ " = " ++ a.value.text) ++
      clause "REMOVE" update.removals

end Update

end KeyedStore
