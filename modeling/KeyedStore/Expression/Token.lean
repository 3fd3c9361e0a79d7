import KeyedStore.Expression.Syntax
import KeyedStore.Text.Blank

/-!
# Tokens of expressions

A text is read as tokens from the left. Words, name placeholders and value placeholders are runs of
letters, digits and underscores, the placeholders with their mark in front; keywords and function
names are words in any letter case. White space separates tokens and is otherwise ignored.
-/
namespace KeyedStore

/-- Why an expression cannot be read or evaluated. -/
inductive ExpressionError where
  | unexpectedToken (expected found : String)
  | unexpectedEnd
  | unresolvedName (name : String)
  | unresolvedValue (name : String)
  | invalidOperand (operation reason : String)
  | typeMismatch (reason : String)
  deriving DecidableEq

/-- The text of an expression error. -/
def ExpressionError.message : ExpressionError → String
  | unexpectedToken expected found => s!"Unexpected token: expected {expected}, found {found}"
  | unexpectedEnd => "Unexpected end of expression"
  | unresolvedName name => "Unresolved expression attribute name: " ++ name
  | unresolvedValue name => "Unresolved expression attribute value: " ++ name
  | invalidOperand operation reason => s!"Invalid operand for {operation}: {reason}"
  | typeMismatch reason => "Type mismatch: " ++ reason

/-- The words with a meaning of their own. -/
inductive Keyword where
  | and
  | or
  | not
  | between
  | in
  | set
  | remove
  deriving DecidableEq

def Keyword.name : Keyword → String
  | and => "AND"
  | or => "OR"
  | not => "NOT"
  | between => "BETWEEN"
  | .in => "IN"
  | set => "SET"
  | remove => "REMOVE"

/-- A token of an expression. -/
inductive Token where
  /-- The name of an attribute. -/
  | word (text : String)
  /-- A placeholder for a name, with its `#`. -/
  | name (text : String)
  /-- A placeholder for a value, with its `:`. -/
  | value (text : String)
  | comparison (op : Comparison)
  | function (f : ConditionFunction)
  | keyword (k : Keyword)
  | comma
  | opening
  | closing
  deriving DecidableEq

namespace Token

/-- The token as messages show it. -/
def display : Token → String
  | word text => s!"identifier '{text}'"
  | name text | value text => text
  | comparison op => "'" ++ op.symbol ++ "'"
  | function f => f.name
  | keyword k => k.name
  | comma => "','"
  | opening => "'('"
  | closing => "')'"

/-- Letters, digits and the underscore. -/
def isWordChar (c : Char) : Bool := c.isAlphanum || c == '_'

/-- Whether a token of several characters can start with a character. -/
def startsRun (c : Char) : Bool := c == '#' || c == ':' || c == '_' || c.isAlpha

/-- The token of a word: a keyword, a function name or an attribute name. -/
def ofWord (text : String) : Token :=
  match String.ofList (text.toList.map Char.toLower) with
  | "and" => keyword .and
  | "or" => keyword .or
  | "not" => keyword .not
  | "between" => keyword .between
  | "in" => keyword .in
  | "set" => keyword .set
  | "remove" => keyword .remove
  | "attribute_exists" => function .attributeExists
  | "attribute_not_exists" => function .attributeNotExists
  | "begins_with" => function .beginsWith
  | _ => word text

/-- The token of a run of characters, if there is one; a mark without a name is none. -/
def ofRun : List Char → Except ExpressionError (List Token)
  | [] => .ok []
  | ['#'] => .error (.unexpectedToken "name after '#'" "empty")
  | [':'] => .error (.unexpectedToken "name after ':'" "empty")
  | '#' :: rest => .ok [name (String.ofList ('#' :: rest))]
  | ':' :: rest => .ok [value (String.ofList (':' :: rest))]
  | run => .ok [ofWord (String.ofList run)]

/-- The tokens of a text, given the characters of the run that ends before it, last first. -/
def scanAfter : List Char → List Char → Except ExpressionError (List Token)
  | run, [] => ofRun run.reverse
  | run, c :: rest =>
    if isWordChar c && !run.isEmpty then scanAfter (c :: run) rest
    else do
      let before ← ofRun run.reverse
      if startsRun c then return before ++ (← scanAfter [c] rest)
      if Text.isAsciiBlank c then return before ++ (← scanAfter [] rest)
      match c, rest with
      | ',', rest => return before ++ comma :: (← scanAfter [] rest)
      | '(', rest => return before ++ opening :: (← scanAfter [] rest)
      | ')', rest => return before ++ closing :: (← scanAfter [] rest)
      | '=', rest => return before ++ comparison .eq :: (← scanAfter [] rest)
      | '<', '=' :: rest => return before ++ comparison .le :: (← scanAfter [] rest)
      | '<', '>' :: rest => return before ++ comparison .ne :: (← scanAfter [] rest)
      | '<', rest => return before ++ comparison .lt :: (← scanAfter [] rest)
      | '>', '=' :: rest => return before ++ comparison .ge :: (← scanAfter [] rest)
      | '>', rest => return before ++ comparison .gt :: (← scanAfter [] rest)
      | other, _ => throw (.unexpectedToken "valid token" s!"'{other}'")

/-- The tokens of a text. -/
def scan (text : String) : Except ExpressionError (List Token) := scanAfter [] text.toList

end Token

end KeyedStore
