import LoxLang.Machine.Operators

/-! Running a program. Evaluation follows the tree; only a loop can go on without end, so each loop
is given a number of rounds, and a run in which one of them needs more is `exhausted`. -/
namespace LoxLang

namespace Eval

/-- The result of an operator, or its failure blamed on the operator. -/
def ofOperator (operator : Token) : Except RuntimeCause Value → Eval Value
  | .ok value => pure value
  | .error cause => fail operator cause

/-- `body` again and again while `test` holds, for at most the given number of tests. -/
def whileTrue (test : Eval Bool) (body : Eval Unit) : (rounds : Nat) → Eval Unit
  | 0 => throw .exhausted
  | rounds + 1 => do
    if ← test then
      body
      whileTrue test body rounds

end Eval

namespace Expr

/-- The value of an expression. Groupings, unary operators and assignments count as nesting. A call
fails before its parts are looked at, since nothing can be called. -/
def evaluate (e : Expr) : Eval Value :=
  match e with
  | missing => throw (.fault .missingExpression)
  | literal value _ => return value
  | grouping inner => Eval.nest inner.token inner.evaluate
  | unary operator right => Eval.nest operator do
    Eval.ofOperator operator (applyUnary operator (← right.evaluate))
  | binary left operator right => do
    let a ← left.evaluate
    let b ← right.evaluate
    Eval.ofOperator operator (applyBinary operator a b)
  | var name => Eval.get name
  | assign name value => Eval.nest name do
    let v ← value.evaluate
    Eval.assign name v
    return v
  | call _ paren _ => Eval.fail paren .notCallable

def holds (e : Expr) : Eval Bool :=
  Value.truthy <$> e.evaluate

end Expr

namespace Stmt

mutual

/-- Runs a statement. An expression statement gives its value, every other one gives none. -/
def execute (rounds : Nat) (s : Stmt) : Eval Value :=
  Eval.nest s.token
    (match s with
    | missing => throw (.fault .missingStatement)
    | expression expr => expr.evaluate
    | print expr => do
      Eval.print (← expr.evaluate)
      return .void
    | declare name => do
      Eval.define name.lexeme .nil
      return .void
    | define name initializer => do
      Eval.define name.lexeme (← initializer.evaluate)
      return .void
    | block _ body => do
      Eval.inNewScope (executeAll rounds body)
      return .void
    | ifThen condition thenBranch => do
      if ← condition.holds then
        let _ ← thenBranch.execute rounds
      return .void
    | ifElse condition thenBranch elseBranch => do
      if ← condition.holds then
        let _ ← thenBranch.execute rounds
      else
        let _ ← elseBranch.execute rounds
      return .void
    | loop condition body => do
      Eval.whileTrue condition.holds (discard (body.execute rounds)) rounds
      return .void
    | bad _ _ => return .void)

def executeAll (rounds : Nat) : List Stmt → Eval Unit
  | [] => return ()
  | s :: rest => do
    let _ ← s.execute rounds
    executeAll rounds rest

end

end Stmt

/-- Runs a program. Its value is that of the last statement, or none if there are no statements. -/
def runProgram (rounds : Nat) (program : List Stmt) : Eval Value :=
  program.foldlM (fun _ s => s.execute rounds) .void

end LoxLang
