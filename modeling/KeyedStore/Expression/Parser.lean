import KeyedStore.Expression.Token

/-!
# Parsing expressions

Reads conditions by recursive descent over tokens: alternatives of conjunctions of negations of
predicates, chains grouped from the left. Every function takes fuel, one unit for each call; a text
is given more than its tokens can use up.
-/
namespace KeyedStore

namespace Parser

/-- The error of a token that does not fit. -/
def unexpected {α : Type} (expected : String) : List Token → Except ExpressionError α
  | [] => .error .unexpectedEnd
  | found :: _ => .error (.unexpectedToken expected found.display)

/-- The tokens after one that must be there. -/
def expect (token : Token) : List Token → Except ExpressionError (List Token)
  | [] => .error .unexpectedEnd
  | found :: rest => if found = token then .ok rest else unexpected token.display (found :: rest)

/-- An operand. -/
def operand : List Token → Except ExpressionError (Operand × List Token)
  | .value text :: rest => .ok (.value text, rest)
  | .name text :: rest | .word text :: rest => .ok (.path text, rest)
  | tokens => unexpected "attribute name, #name or :value" tokens

/-- The operands after the first one of a list, and the parenthesis that ends it. -/
def operandsAfter : Nat → List Token → Except ExpressionError (List Operand × List Token)
  | 0, _ => .error .unexpectedEnd
  | fuel + 1, .comma :: rest => do
    let (first, rest) ← operand rest
    let (others, rest) ← operandsAfter fuel rest
    .ok (first :: others, rest)
  | _, tokens => do
    let rest ← expect .closing tokens
    .ok ([], rest)

/-- One or more operands in parentheses. -/
def operands (tokens : List Token) : Except ExpressionError (List Operand × List Token) := do
  let (first, rest) ← operand (← expect .opening tokens)
  let (others, rest) ← operandsAfter (rest.length + 1) rest
  .ok (first :: others, rest)

/-- The part of a predicate after its first operand. -/
def predicateAfter (left : Operand) : List Token → Except ExpressionError (Expr × List Token)
  | .comparison op :: rest => do
    let (right, rest) ← operand rest
    .ok (.compare left op right, rest)
  | .keyword .between :: rest => do
    let (low, rest) ← operand rest
    let (high, rest) ← operand (← expect (.keyword .and) rest)
    .ok (.between left low high, rest)
  | .keyword .in :: rest => do
    let (list, rest) ← operands rest
    .ok (.member left list, rest)
  | tokens => unexpected "comparison operator, BETWEEN, or IN" tokens

mutual

/-- Conjunctions separated by `OR`. -/
def alternative : Nat → List Token → Except ExpressionError (Expr × List Token)
  | 0, _ => .error .unexpectedEnd
  | fuel + 1, tokens => do
    let (first, rest) ← conjunction fuel tokens
    alternativeAfter fuel first rest

/-- More conjunctions after those already read. -/
def alternativeAfter : Nat → Expr → List Token → Except ExpressionError (Expr × List Token)
  | 0, _, _ => .error .unexpectedEnd
  | fuel + 1, left, .keyword .or :: rest => do
    let (right, rest) ← conjunction fuel rest
    alternativeAfter fuel (.or left right) rest
  | _ + 1, left, rest => .ok (left, rest)

/-- Negations separated by `AND`. -/
def conjunction : Nat → List Token → Except ExpressionError (Expr × List Token)
  | 0, _ => .error .unexpectedEnd
  | fuel + 1, tokens => do
    let (first, rest) ← negation fuel tokens
    conjunctionAfter fuel first rest

/-- More negations after those already read. -/
def conjunctionAfter : Nat → Expr → List Token → Except ExpressionError (Expr × List Token)
  | 0, _, _ => .error .unexpectedEnd
  | fuel + 1, left, .keyword .and :: rest => do
    let (right, rest) ← negation fuel rest
    conjunctionAfter fuel (.and left right) rest
  | _ + 1, left, rest => .ok (left, rest)

/-- A predicate with any number of `NOT` before it. -/
def negation : Nat → List Token → Except ExpressionError (Expr × List Token)
  | 0, _ => .error .unexpectedEnd
  | fuel + 1, .keyword .not :: rest => do
    let (inner, rest) ← negation fuel rest
    .ok (.not inner, rest)
  | fuel + 1, tokens => predicate fuel tokens

/-- A condition in parentheses, a function call, or a test of an operand. -/
def predicate : Nat → List Token → Except ExpressionError (Expr × List Token)
  | 0, _ => .error .unexpectedEnd
  | fuel + 1, .opening :: rest => do
    let (inner, rest) ← alternative fuel rest
    .ok (inner, ← expect .closing rest)
  | _ + 1, .function f :: rest => do
    let (arguments, rest) ← operands rest
    .ok (.call f arguments, rest)
  | _ + 1, tokens => do
    let (left, rest) ← operand tokens
    predicateAfter left rest

end

/-- An attribute to be changed; a value placeholder is none. -/
def path (tokens : List Token) : Except ExpressionError (String × List Token) := do
  match ← operand tokens with
  | (.path text, rest) => .ok (text, rest)
  | (.value text, _) => .error (.invalidOperand "update" s!"{text} is not an attribute path")

/-- Assignments separated by commas. -/
def assignments : Nat → List Token → Except ExpressionError (List Assignment × List Token)
  | 0, _ => .error .unexpectedEnd
  | fuel + 1, tokens => do
    let (target, rest) ← path tokens
    let (value, rest) ← operand (← expect (.comparison .eq) rest)
    match rest with
    | .comma :: rest => do
      let (others, rest) ← assignments fuel rest
      .ok (⟨target, value⟩ :: others, rest)
    | rest => .ok ([⟨target, value⟩], rest)

/-- Attributes separated by commas. -/
def paths : Nat → List Token → Except ExpressionError (List String × List Token)
  | 0, _ => .error .unexpectedEnd
  | fuel + 1, tokens => do
    let (first, rest) ← path tokens
    match rest with
    | .comma :: rest => do
      let (others, rest) ← paths fuel rest
      .ok (first :: others, rest)
    | rest => .ok ([first], rest)

/-- The clauses of an update, in any order and number. -/
def clauses : Nat → List Token → Except ExpressionError Update
  | 0, _ => .error .unexpectedEnd
  | _ + 1, [] => .ok {}
  | fuel + 1, .keyword .set :: rest => do
    let (first, rest) ← assignments (rest.length + 1) rest
    let others ← clauses fuel rest
    .ok { others with assignments := first ++ others.assignments }
  | fuel + 1, .keyword .remove :: rest => do
    let (first, rest) ← paths (rest.length + 1) rest
    let others ← clauses fuel rest
    .ok { others with removals := first ++ others.removals }
  | _ + 1, tokens => unexpected "SET or REMOVE" tokens

end Parser

/-- Reads a condition. -/
def Expr.parse (text : String) : Except ExpressionError Expr := do
  let tokens ← Token.scan text
  let (expr, rest) ← Parser.alternative (4 * tokens.length + 4) tokens
  if rest.isEmpty then .ok expr else Parser.unexpected "end of expression" rest

/-- Reads an update, which must change something. -/
def Update.parse (text : String) : Except ExpressionError Update := do
  let tokens ← Token.scan text
  let update ← Parser.clauses (tokens.length + 1) tokens
  if update.paths.isEmpty then .error .unexpectedEnd else .ok update

end KeyedStore
