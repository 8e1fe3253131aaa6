import LoxLang.Parser.Expression
import LoxLang.Scanner

/-! Statements and programs. A declaration never gives up: one that cannot be parsed, or that was
complained about, becomes a `bad` statement, and parsing goes on at the next boundary. -/
namespace LoxLang
namespace Parser

/-- After `var`. -/
def variableDeclaration (expr : Parser Expr) : Parser Stmt := do
  let name ← expect .variableName
  match ← accept? [.equal] with
  | none => do
    let _ ← expect .semicolonAfterVariable
    return .declare name
  | some _ => do
    let initializer ← expr
    let _ ← expect .semicolonAfterVariable
    return .define name initializer

/-- The token begins a statement, so parsing can go on at it after an error. -/
def startsStatement (kind : TokenKind) : Bool :=
  [.classWord, .funWord, .varWord, .forWord, .ifWord, .whileWord, .printWord, .returnWord].contains
    kind

/-- What is left after the token `last`, from just after a semicolon or from a token that begins a
statement. -/
def boundary (last : Token) (tokens : List Token) : List Token :=
  match tokens with
  | [] => []
  | token :: rest =>
    if last.kind = .semicolon ∨ startsStatement token.kind then tokens else boundary token rest

/-- What is left after an error: at least one token is dropped. -/
def synchronize : List Token → List Token
  | [] => []
  | token :: rest => boundary token rest

/-- A variable declaration or a statement; a `bad` statement if there is any complaint about it. The
complaint kept is the one that it was given up with, or else the first one. -/
def declaration (expr : Parser Expr) (stmt : Parser Stmt) : Parser Stmt := fun stop tokens =>
  let start := tokens.headD stop
  let reply :=
    if start.kind = .varWord then variableDeclaration expr stop tokens.tail else stmt stop tokens
  match reply.outcome, reply.errors with
  | .error e, _ =>
    { reply with outcome := .ok (.bad start e.diagnostic), rest := synchronize reply.rest }
  | .ok _, e :: _ => { reply with outcome := .ok (.bad start e.diagnostic) }
  | .ok _, [] => reply

/-- One more declaration, unless the next token is of kind `close` or the input ends. -/
def nextDeclaration (close : TokenKind) (expr : Parser Expr) (stmt : Parser Stmt) :
    Parser (Option Stmt) := do
  let token ← peek
  if token.kind = close ∨ token.kind = .eof then return none
  return some (← declaration expr stmt)

/-- A statement whose expressions are parsed by `expr` and whose parts by `stmt`. -/
def statementWith (expr : Parser Expr) (stmt : Parser Stmt) : Parser Stmt := do
  let token ← peek
  match token.kind with
  | .ifWord => do
    advance
    let _ ← expect .parenAfterIf
    let condition ← expr
    let _ ← expect .parenAfterIfCondition
    let thenBranch ← stmt
    match ← accept? [.elseWord] with
    | none => return .ifThen condition thenBranch
    | some _ => return .ifElse condition thenBranch (← stmt)
  | .whileWord => do
    advance
    let _ ← expect .parenAfterWhile
    let condition ← expr
    let _ ← expect .parenAfterCondition
    return .loop condition (← stmt)
  | .printWord => do
    advance
    let value ← expr
    let _ ← expect .semicolonAfterValue
    return .print value
  | .leftBrace => do
    advance
    let body ← repeated fun _ => nextDeclaration .rightBrace expr stmt
    let _ ← expect .braceAfterBlock
    return .block token body
  | _ => do
    let value ← expr
    let _ ← expect .semicolonAfterExpression
    return .expression value

/-- A statement, with `room` levels of nesting left. -/
def statement : (room : Nat) → (stop : Token) → List Token → Reply Stmt
  | 0, stop, tokens => tooDeep stop tokens
  | room + 1, stop, tokens => statementWith (expression room) (statement room) stop tokens

def declarations (limit : Nat) : Parser (List Stmt) :=
  repeated fun _ => nextDeclaration .eof (expression limit) (statement limit)

end Parser

def defaultParseDepth : Nat := 512

/-- The limit that was asked for, if it is positive, and else the usual one. -/
def positiveOr (default : Nat) : Option Int → Nat
  | some (.ofNat (n + 1)) => n + 1
  | _ => default

/-- The token after which nothing is parsed: the first end token, or, if there is none, one on the
line of the last token. -/
def stopToken (tokens : List Token) : Token :=
  match tokens.find? (·.kind == .eof) with
  | some stop => stop
  | none => endToken { line := (tokens.getLast?.map Token.line).getD 1 }

/-- Parses the tokens before the first end token, with `limit` levels of nesting. -/
def parseTokens (limit : Nat) (tokens : List Token) : List Stmt × List SyntaxError :=
  let reply := Parser.declarations limit (stopToken tokens) (tokens.takeWhile (·.kind != .eof))
  (reply.outcome.toOption.getD [], reply.errors)

/-- A parsed source: its statements, and the complaints of the scanner and of the parser. -/
structure Parsed where
  program : List Stmt
  lexical : List LexError
  syntactic : List SyntaxError
deriving Inhabited

namespace Parsed

/-- All complaints, those of the scanner first. -/
def diagnostics (p : Parsed) : List Diagnostic :=
  p.lexical.map LexError.diagnostic ++ p.syntactic.map SyntaxError.diagnostic

end Parsed

def parse (limit : Nat) (file : String) (source : List Char) : Parsed :=
  let (tokens, lexical) := scan file source
  let (program, syntactic) := parseTokens limit tokens
  { program, lexical, syntactic }

end LoxLang
