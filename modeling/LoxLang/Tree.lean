import LoxLang.Diagnostic

/-! The syntax tree. The parser builds every node but `missing`, which marks a hole in a tree that
was put together by hand. -/
namespace LoxLang

inductive Expr where
  | missing
  | literal (value : Value) (token : Token)
  | grouping (inner : Expr)
  | unary (operator : Token) (right : Expr)
  | binary (left : Expr) (operator : Token) (right : Expr)
  | var (name : Token)
  | assign (name : Token) (value : Expr)
  /-- A call, with its closing parenthesis. -/
  | call (callee : Expr) (paren : Token) (arguments : List Expr)
deriving Inhabited

inductive Stmt where
  | missing
  | expression (expr : Expr)
  | print (expr : Expr)
  /-- A declaration without an initializer. -/
  | declare (name : Token)
  | define (name : Token) (initializer : Expr)
  /-- A block, with its opening brace. -/
  | block (brace : Token) (body : List Stmt)
  | ifThen (condition : Expr) (thenBranch : Stmt)
  | ifElse (condition : Expr) (thenBranch elseBranch : Stmt)
  | loop (condition : Expr) (body : Stmt)
  /-- A declaration that could not be parsed: its first token, and what was wrong with it. -/
  | bad (start : Token) (error : Diagnostic)
deriving Inhabited

namespace Expr

/-- A token to blame for an error raised at the expression; groupings are looked through. -/
def token : Expr → Token
  | missing => {}
  | literal _ token => token
  | grouping inner => inner.token
  | unary operator _ => operator
  | binary _ operator _ => operator
  | var name => name
  | assign name _ => name
  | call _ paren _ => paren

end Expr

namespace Stmt

/-- A token to blame for an error raised at the statement. -/
def token : Stmt → Token
  | missing => {}
  | expression expr | print expr => expr.token
  | declare name | define name _ => name
  | block brace _ => brace
  | ifThen condition _ | ifElse condition _ _ | loop condition _ => condition.token
  | bad start _ => start

end Stmt
end LoxLang
