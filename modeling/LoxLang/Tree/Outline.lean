import LoxLang.Tree

/-! The outline of a tree: its nodes in the order of their first mention, each with the depth at
which it stands and the tokens that it holds. -/
namespace LoxLang

def Token.mark (t : Token) : String :=
  s!"{t.kind.name}@{t.position.line}:{t.position.column}"

def outlineLine (depth : Nat) (description : String) : String :=
  s!"{depth} {description}"

namespace Expr

mutual

def outline (depth : Nat) : Expr → List String
  | missing => [outlineLine depth "<nil>"]
  | literal value token =>
    let text := value.text?.getD "<nil>"
    [outlineLine depth s!"Literal {token.mark} {value.typeName} {text}"]
  | grouping inner => outlineLine depth "Grouping" :: inner.outline (depth + 1)
  | unary operator right =>
    outlineLine depth s!"Unary {operator.mark}" :: right.outline (depth + 1)
  | binary left operator right =>
    outlineLine depth s!"Binary {operator.mark}" ::
      (left.outline (depth + 1) ++ right.outline (depth + 1))
  | var name => [outlineLine depth s!"Variable {name.mark} {name.lexeme}"]
  | assign name value =>
    outlineLine depth s!"Assign {name.mark} {name.lexeme}" :: value.outline (depth + 1)
  | call callee paren arguments =>
    outlineLine depth s!"Call {paren.mark} {arguments.length}" ::
      (callee.outline (depth + 1) ++ outlineAll (depth + 1) arguments)

def outlineAll (depth : Nat) : List Expr → List String
  | [] => []
  | e :: es => e.outline depth ++ outlineAll depth es

end

end Expr

namespace Stmt

mutual

def outline (depth : Nat) : Stmt → List String
  | missing => [outlineLine depth "<nil>"]
  | expression expr => outlineLine depth "ExpressionStmt" :: expr.outline (depth + 1)
  | print expr => outlineLine depth "PrintStmt" :: expr.outline (depth + 1)
  | declare name => [outlineLine depth s!"VarStmt {name.mark} {name.lexeme}"]
  | define name initializer =>
    outlineLine depth s!"VarStmt {name.mark} {name.lexeme}" :: initializer.outline (depth + 1)
  | block brace body =>
    outlineLine depth s!"BlockStmt {brace.mark} {body.length}" :: outlineAll (depth + 1) body
  | ifThen condition thenBranch =>
    outlineLine depth "IfStmt" ::
      (condition.outline (depth + 1) ++ thenBranch.outline (depth + 1))
  | ifElse condition thenBranch elseBranch =>
    outlineLine depth "IfStmt" ::
      (condition.outline (depth + 1) ++ thenBranch.outline (depth + 1) ++
        elseBranch.outline (depth + 1))
  | loop condition body =>
    outlineLine depth "WhileStmt" :: (condition.outline (depth + 1) ++ body.outline (depth + 1))
  | bad start error =>
    let text := error.text?.getD "<nil>"
    [outlineLine depth s!"BadStmt {start.mark} {text}"]

def outlineAll (depth : Nat) : List Stmt → List String
  | [] => []
  | s :: ss => s.outline depth ++ outlineAll depth ss

end

end Stmt
end LoxLang
