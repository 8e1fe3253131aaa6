import LoxLang.Parser

/-! Parsing by a cursor that moves over a row of tokens. The cursor looks at tokens by their index and
counts how deep it is, a complaint that cannot be gone on from unwinds to the declaration around it,
and the loops and calls end when they end: a run may also look where there is no token, or use up all
the rounds that it is given. -/
namespace LoxLang

/-- A place in a row of tokens, how deep it is nested there, and the complaints so far. -/
structure Cursor where
  tokens : List Token
  current : Nat := 0
  depth : Nat := 0
  limit : Nat
  errors : List SyntaxError := []

/-- How a run ends. Only a run that is done, or that unwinds, leaves a cursor behind. -/
inductive Ending (α : Type) where
  | done (a : α) (cursor : Cursor)
  | unwound (e : SyntaxError) (cursor : Cursor)
  | outside
  | endless

def Walk (α : Type) : Type :=
  Cursor → Ending α

namespace Walk

protected def pure (a : α) : Walk α := fun c => .done a c

protected def bind (w : Walk α) (f : α → Walk β) : Walk β := fun c =>
  match w c with
  | .done a c => f a c
  | .unwound e c => .unwound e c
  | .outside => .outside
  | .endless => .endless

instance : Monad Walk where
  pure := Walk.pure
  bind := Walk.bind

def tokenAt (index : Nat) : Walk Token := fun c =>
  match c.tokens[index]? with
  | some token => .done token c
  | none => .outside

def peek : Walk Token := fun c => tokenAt c.current c

/-- The token before the cursor. Before the first token there is none. -/
def previous : Walk Token := fun c =>
  match c.current with
  | 0 => .outside
  | index + 1 => tokenAt index c

def moveOn : Walk Unit := fun c => .done () { c with current := c.current + 1 }

/-- Moves over a token, which is the answer. At an end token the cursor stays, and the answer is the
token before it. -/
def advance : Walk Token := do
  if (← peek).kind ≠ .eof then moveOn
  previous

def report (e : SyntaxError) : Walk Unit := fun c => .done () { c with errors := c.errors ++ [e] }

def fail (e : SyntaxError) : Walk α := fun c => .unwound e { c with errors := c.errors ++ [e] }

def check (kind : TokenKind) : Walk Bool := do
  return (← peek).kind == kind

def accept? (kinds : List TokenKind) : Walk (Option Token) := do
  if kinds.contains (← peek).kind then return some (← advance)
  return none

def expect (expected : Expectation) : Walk Token := do
  if ← check expected.kind then advance
  else fail (.missing expected (← peek))

def deepen : Walk Unit := fun c => .done () { c with depth := c.depth + 1 }

/-- One level deeper. The level counts as entered even if there is no room for it. -/
def enter : Walk Unit := do
  deepen
  fun c => if c.limit < c.depth then (do fail (.tooDeep (← peek))) c else .done () c

/-- Leaves the level when `part` is done, and also when it unwinds. -/
def leaving (part : Walk α) : Walk α := fun c =>
  match part c with
  | .done a c => .done a { c with depth := c.depth - 1 }
  | .unwound e c => .unwound e { c with depth := c.depth - 1 }
  | .outside => .outside
  | .endless => .endless

def nest (part : Walk α) : Walk α := do
  enter
  leaving part

def endless : Walk α := fun _ => .endless

/-- `step` again and again, each time on what came of it before, until it gives nothing. -/
def iterate (step : β → Walk (Option β)) : (rounds : Nat) → β → Walk β
  | 0, _ => endless
  | rounds + 1, b => do
    match ← step b with
    | none => return b
    | some next => iterate step rounds next

section Expressions

variable (rounds : Nat)

def primary (inner : Walk Expr) : Walk Expr := do
  let token ← peek
  match token.kind with
  | .falseWord => return .literal (.bool false) (← advance)
  | .trueWord => return .literal (.bool true) (← advance)
  | .nilWord => return .literal .nil (← advance)
  | .number | .string => do
    let taken ← advance
    return .literal taken.literal taken
  | .identifier => return .var (← advance)
  | .leftParen => do
    let _ ← advance
    let expr ← inner
    let _ ← expect .parenAfterExpression
    return .grouping expr
  | _ => fail (.expectExpression token)

/-- The arguments so far, and one more after a comma. -/
def nextArgument (inner : Walk Expr) (args : List Expr) : Walk (Option (List Expr)) := do
  match ← accept? [.comma] with
  | none => return none
  | some _ =>
    if maxArguments ≤ args.length then report (.tooManyArguments (← peek))
    return some (args ++ [← inner])

def arguments (inner : Walk Expr) : Walk (List Expr) := do
  if ← check .rightParen then return []
  iterate (nextArgument inner) rounds [← inner]

def nextCall (inner : Walk Expr) (callee : Expr) : Walk (Option Expr) := do
  match ← accept? [.leftParen] with
  | none => return none
  | some _ =>
    let args ← arguments rounds inner
    let paren ← expect .parenAfterArguments
    return some (.call callee paren args)

def call (inner : Walk Expr) : Walk Expr := do
  iterate (nextCall rounds inner) rounds (← primary inner)

/-- The operand is one level deeper than its operator. -/
def unary (inner operand : Walk Expr) : Walk Expr := do
  match ← accept? [.bang, .minus] with
  | some operator => nest (do return .unary operator (← operand))
  | none => call rounds inner

def nextOperation (operand : Walk Expr) (kinds : List TokenKind) (left : Expr) :
    Walk (Option Expr) := do
  match ← accept? kinds with
  | none => return none
  | some operator => return some (.binary left operator (← operand))

def binary (operand : Walk Expr) (kinds : List TokenKind) : Walk Expr := do
  iterate (nextOperation operand kinds) rounds (← operand)

def equality (operand : Walk Expr) : Walk Expr :=
  let factor := binary rounds operand Parser.factorKinds
  let term := binary rounds factor Parser.termKinds
  let comparison := binary rounds term Parser.comparisonKinds
  binary rounds comparison Parser.equalityKinds

def assignment (operand value : Walk Expr) : Walk Expr := do
  let target ← equality rounds operand
  match ← accept? [.equal] with
  | none => return target
  | some equals =>
    let assigned ← value
    match target with
    | .var name => return .assign name assigned
    | _ => do
      report (.invalidTarget equals)
      return target

/-- An expression at one of the levels that count as nesting, for as many calls as `fuel` allows. -/
def nested : (fuel : Nat) → Parser.Level → Walk Expr
  | 0, _ => endless
  | fuel + 1, .assignment => nest (assignment rounds (nested fuel .unary) (nested fuel .assignment))
  | fuel + 1, .unary => unary rounds (nested fuel .assignment) (nested fuel .unary)

end Expressions

section Statements

variable (rounds : Nat)

def variableDeclaration (expr : Walk Expr) : Walk Stmt := do
  let name ← expect .variableName
  match ← accept? [.equal] with
  | none => do
    let _ ← expect .semicolonAfterVariable
    return .declare name
  | some _ => do
    let initializer ← expr
    let _ ← expect .semicolonAfterVariable
    return .define name initializer

/-- One more token is dropped, unless parsing can go on here. -/
def skip (_ : Unit) : Walk (Option Unit) := do
  if (← peek).kind = .eof then return none
  if (← previous).kind = .semicolon then return none
  if Parser.startsStatement (← peek).kind then return none
  let _ ← advance
  return some ()

def synchronize : Walk Unit := do
  let _ ← advance
  iterate skip rounds ()

def attempt (expr : Walk Expr) (stmt : Walk Stmt) : Walk Stmt := do
  match ← accept? [.varWord] with
  | some _ => variableDeclaration expr
  | none => stmt

/-- A syntax error that unwinds to here is caught: the depth is what it was before, and parsing goes
on at a boundary. Whatever else escapes goes on escaping. -/
def catching (start : Token) (part : Walk Stmt) : Walk Stmt := fun c =>
  match part c with
  | .done s after =>
    match after.errors[c.errors.length]? with
    | none => .done s after
    | some e => .done (.bad start e.diagnostic) after
  | .unwound e after =>
    if e.diagnostic.phase = .syntactic then
      (do synchronize rounds; return Stmt.bad start e.diagnostic) { after with depth := c.depth }
    else .unwound e after
  | .outside => .outside
  | .endless => .endless

def declaration (expr : Walk Expr) (stmt : Walk Stmt) : Walk Stmt := do
  catching rounds (← peek) (attempt expr stmt)

def nextDeclaration (close : TokenKind) (expr : Walk Expr) (stmt : Walk Stmt) (body : List Stmt) :
    Walk (Option (List Stmt)) := do
  let token ← peek
  if token.kind = close ∨ token.kind = .eof then return none
  return some (body ++ [← declaration rounds expr stmt])

def statementWith (expr : Walk Expr) (stmt : Walk Stmt) : Walk Stmt := do
  let token ← peek
  match token.kind with
  | .ifWord => do
    let _ ← advance
    let _ ← expect .parenAfterIf
    let condition ← expr
    let _ ← expect .parenAfterIfCondition
    let thenBranch ← stmt
    match ← accept? [.elseWord] with
    | none => return .ifThen condition thenBranch
    | some _ => return .ifElse condition thenBranch (← stmt)
  | .whileWord => do
    let _ ← advance
    let _ ← expect .parenAfterWhile
    let condition ← expr
    let _ ← expect .parenAfterCondition
    return .loop condition (← stmt)
  | .printWord => do
    let _ ← advance
    let value ← expr
    let _ ← expect .semicolonAfterValue
    return .print value
  | .leftBrace => do
    let brace ← advance
    let body ← iterate (nextDeclaration rounds .rightBrace expr stmt) rounds []
    let _ ← expect .braceAfterBlock
    return .block brace body
  | _ => do
    let value ← expr
    let _ ← expect .semicolonAfterExpression
    return .expression value

def statement : (fuel : Nat) → Walk Stmt
  | 0 => endless
  | fuel + 1 => nest (statementWith rounds (nested rounds fuel .assignment) (statement fuel))

end Statements

section Programs

variable (fuel : Nat)

def topAttempt : Walk Stmt :=
  attempt (nested fuel fuel .assignment) (statement fuel fuel)

def topDeclaration : Walk Stmt :=
  declaration fuel (nested fuel fuel .assignment) (statement fuel fuel)

/-- All declarations of a program. No loop takes more than `fuel` rounds, and no chain of calls is
longer than that. -/
def program : Walk (List Stmt) :=
  iterate (nextDeclaration fuel .eof (nested fuel fuel .assignment) (statement fuel fuel)) fuel []

end Programs

end Walk

/-- The row of tokens with an end token after it, on the line of its last token, unless it ends with
one. -/
def closed (tokens : List Token) : List Token :=
  if tokens.getLast?.map Token.kind = some .eof then tokens
  else tokens ++ [endToken { line := (tokens.getLast?.map Token.line).getD 1 }]

def Cursor.start (limit : Nat) (tokens : List Token) : Cursor :=
  { tokens := closed tokens, limit }

end LoxLang
