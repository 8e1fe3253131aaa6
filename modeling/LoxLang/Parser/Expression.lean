import LoxLang.Parser.Basic
import LoxLang.Tree

/-! Expressions. Each level of precedence is a parser made from the next tighter one. Two of them
count as nesting, the assignment level and the operand of a unary operator: they are parsed with
`room` levels left, and give up when there is none. -/
namespace LoxLang
namespace Parser

/-- Literals, names, and an `inner` expression in parentheses. -/
def primary (inner : Parser Expr) : Parser Expr := do
  let token ← peek
  match token.kind with
  | .falseWord => do advance; return .literal (.bool false) token
  | .trueWord => do advance; return .literal (.bool true) token
  | .nilWord => do advance; return .literal .nil token
  | .number | .string => do advance; return .literal token.literal token
  | .identifier => do advance; return .var token
  | .leftParen => do
    advance
    let expr ← inner
    let _ ← expect .parenAfterExpression
    return .grouping expr
  | _ => fail (.expectExpression token)

def nextArgument (inner : Parser Expr) (count : Nat) : Parser (Option Expr) := do
  match ← accept? [.comma] with
  | none => return none
  | some _ =>
    if maxArguments ≤ count + 1 then report (.tooManyArguments (← peek))
    return some (← inner)

def arguments (inner : Parser Expr) : Parser (List Expr) := do
  if ← check .rightParen then return []
  let first ← inner
  return first :: (← repeated (nextArgument inner))

/-- An argument list in parentheses: the closing one, and the arguments. -/
def callSuffix (inner : Parser Expr) : Parser (Option (Token × List Expr)) := do
  match ← accept? [.leftParen] with
  | none => return none
  | some _ =>
    let args ← arguments inner
    let paren ← expect .parenAfterArguments
    return some (paren, args)

/-- A primary expression, called any number of times. -/
def call (inner : Parser Expr) : Parser Expr := do
  let first ← primary inner
  let suffixes ← repeated fun _ => callSuffix inner
  return suffixes.foldl (fun callee (paren, args) => .call callee paren args) first

/-- Unary operators, whose operand is parsed by `operand`, or a call. -/
def unary (inner operand : Parser Expr) : Parser Expr := do
  match ← accept? [.bang, .minus] with
  | some operator => return .unary operator (← operand)
  | none => call inner

def operation (operand : Parser Expr) (kinds : List TokenKind) : Parser (Option (Token × Expr)) := do
  match ← accept? kinds with
  | none => return none
  | some operator => return some (operator, ← operand)

/-- Operands joined by operators of one level, grouped from the left. -/
def chain (operand : Parser Expr) (kinds : List TokenKind) : Parser Expr := do
  let first ← operand
  let more ← repeated fun _ => operation operand kinds
  return more.foldl (fun left (operator, right) => .binary left operator right) first

def factorKinds : List TokenKind := [.slash, .star]
def termKinds : List TokenKind := [.minus, .plus]
def comparisonKinds : List TokenKind := [.greater, .greaterEqual, .less, .lessEqual]
def equalityKinds : List TokenKind := [.bangEqual, .equalEqual]

def factor (operand : Parser Expr) : Parser Expr := chain operand factorKinds
def term (operand : Parser Expr) : Parser Expr := chain (factor operand) termKinds
def comparison (operand : Parser Expr) : Parser Expr := chain (term operand) comparisonKinds
def equality (operand : Parser Expr) : Parser Expr := chain (comparison operand) equalityKinds

/-- An assignment, whose right-hand side is parsed by `value`, or a plain expression. Anything but a
name on the left is complained about, and the right-hand side dropped. -/
def assignment (operand value : Parser Expr) : Parser Expr := do
  let target ← equality operand
  match ← accept? [.equal] with
  | none => return target
  | some equals =>
    let assigned ← value
    match target with
    | .var name => return .assign name assigned
    | _ => do
      report (.invalidTarget equals)
      return target

/-- The levels that count as nesting. -/
inductive Level where
  | assignment | unary
deriving DecidableEq, Repr

/-- An expression at one of the nesting levels, with `room` levels left. -/
def nested : Level → (room : Nat) → (stop : Token) → List Token → Reply Expr
  | .assignment, 0, stop, tokens => tooDeep stop tokens
  | .assignment, room + 1, stop, tokens =>
    assignment (nested .unary room) (nested .assignment room) stop tokens
  | .unary, 0, stop, tokens => unary tooDeep tooDeep stop tokens
  | .unary, room + 1, stop, tokens =>
    unary (assignment (nested .unary room) (nested .assignment room)) (nested .unary room) stop
      tokens

def expression (room : Nat) : Parser Expr :=
  nested .assignment room

end Parser
end LoxLang
