import LoxLang.Tree

/-! The tree as text: every node is a parenthesised list that begins with its name, such as
`(print (+ 1 2))`, and a declaration that could not be parsed is `<error>`. A tree with a hole, or
with a literal that has no value, has no text. -/
namespace LoxLang

inductive PrintFault where
  | missingValue
  | missingExpression
  | missingStatement
  /-- The thing as a whole is not a tree. -/
  | notATree (typeName : String)
deriving DecidableEq, Inhabited, Repr

namespace PrintFault

def message : PrintFault → String
  | missingValue => "runtime error"
  | missingExpression => "ast.Print: unhandled expression <nil>"
  | missingStatement => "ast.Print: unhandled statement <nil>"
  | notATree typeName => s!"ast.Print: unhandled {typeName}"

end PrintFault

def parenthesized (parts : List String) : String :=
  "(" ++ " ".intercalate parts ++ ")"

namespace Expr

mutual

def printed : Expr → Except PrintFault String
  | missing => .error .missingExpression
  | literal value _ => (value.text?.map .ok).getD (.error .missingValue)
  | grouping inner => do return parenthesized ["group", ← inner.printed]
  | unary operator right => do return parenthesized [operator.lexeme, ← right.printed]
  | binary left operator right => do
    return parenthesized [operator.lexeme, ← left.printed, ← right.printed]
  | var name => .ok name.lexeme
  | assign name value => do
    return parenthesized ["assign", name.lexeme, "=", ← value.printed]
  | call callee _ arguments => do
    return parenthesized ("call" :: (← callee.printed) :: (← printedAll arguments))

def printedAll : List Expr → Except PrintFault (List String)
  | [] => .ok []
  | e :: es => do return (← e.printed) :: (← printedAll es)

end

end Expr

namespace Stmt

mutual

def printed : Stmt → Except PrintFault String
  | missing => .error .missingStatement
  | expression expr => do return parenthesized [";", ← expr.printed]
  | print expr => do return parenthesized ["print", ← expr.printed]
  | declare name => .ok (parenthesized ["var", name.lexeme])
  | define name initializer => do
    return parenthesized ["var", name.lexeme, "=", ← initializer.printed]
  | block _ body => do return parenthesized ("block" :: (← printedAll body))
  | ifThen condition thenBranch => do
    return parenthesized ["if", ← condition.printed, ← thenBranch.printed]
  | ifElse condition thenBranch elseBranch => do
    return parenthesized
      ["if", ← condition.printed, ← thenBranch.printed, "else", ← elseBranch.printed]
  | loop condition body => do
    return parenthesized ["while", ← condition.printed, ← body.printed]
  | bad _ _ => .ok "<error>"

def printedAll : List Stmt → Except PrintFault (List String)
  | [] => .ok []
  | s :: ss => do return (← s.printed) :: (← printedAll ss)

end

end Stmt

/-- The text of a program, one statement a line. -/
def printProgram (program : List Stmt) : Except PrintFault String := do
  return "\n".intercalate (← Stmt.printedAll program)

end LoxLang
