import LoxLang.Diagnostic

/-! What the parser complains about. -/
namespace LoxLang

/-- The places of the grammar where one particular token has to come. -/
inductive Expectation where
  | variableName
  | semicolonAfterVariable
  | parenAfterIf
  | parenAfterIfCondition
  | parenAfterWhile
  | parenAfterCondition
  | semicolonAfterValue
  | semicolonAfterExpression
  | braceAfterBlock
  | parenAfterArguments
  | parenAfterExpression
deriving DecidableEq, Inhabited, Repr

namespace Expectation

def kind : Expectation → TokenKind
  | variableName => .identifier
  | semicolonAfterVariable | semicolonAfterValue | semicolonAfterExpression => .semicolon
  | parenAfterIf | parenAfterWhile => .leftParen
  | parenAfterIfCondition | parenAfterCondition | parenAfterArguments | parenAfterExpression =>
    .rightParen
  | braceAfterBlock => .rightBrace

def message : Expectation → String
  | variableName => "Expect variable name."
  | semicolonAfterVariable => "Expect ';' after variable declaration."
  | parenAfterIf => "Expect '(' after 'if'."
  | parenAfterIfCondition => "Expect ')' after if condition."
  | parenAfterWhile => "Expect '(' after 'while'."
  | parenAfterCondition => "Expect ')' after condition."
  | semicolonAfterValue => "Expect ';' after value."
  | semicolonAfterExpression => "Expect ';' after expression."
  | braceAfterBlock => "Expect '\x7d' after block."
  | parenAfterArguments => "Expect ')' after arguments."
  | parenAfterExpression => "Expect ')' after expression."

end Expectation

def maxArguments : Nat := 255

inductive SyntaxError where
  | expectExpression (token : Token)
  | tooDeep (token : Token)
  | invalidTarget (token : Token)
  | tooManyArguments (token : Token)
  | missing (expected : Expectation) (got : Token)
deriving Inhabited

namespace SyntaxError

def diagnostic : SyntaxError → Diagnostic
  | expectExpression token => .unexpected token "Expect expression."
  | tooDeep token => .unexpected token "Expression nesting too deep."
  | invalidTarget token => .unexpected token "Invalid assignment target."
  | tooManyArguments token => .unexpected token s!"Can't have more than {maxArguments} arguments."
  | missing expected got => .expected expected.kind got expected.message

theorem phase_diagnostic (e : SyntaxError) : e.diagnostic.phase = .syntactic := by
  cases e <;> exact Diagnostic.phase_of_complaint rfl

end SyntaxError
end LoxLang
