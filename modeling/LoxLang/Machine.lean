import LoxLang.Scope
import LoxLang.Tree

/-! The state of a run, and the ways in which a run can stop. -/
namespace LoxLang

inductive RuntimeCause where
  | operandNotNumber
  | operandsNotNumbers
  | operandsNotAddable
  | divisionByZero
  | undefinedVariable (name : String)
  | notCallable
  | invalidUnary
  | invalidBinary
  | tooDeep
deriving DecidableEq, Inhabited, Repr

namespace RuntimeCause

def message : RuntimeCause → String
  | operandNotNumber => "Operand must be a number."
  | operandsNotNumbers => "Operands must be numbers."
  | operandsNotAddable => "Operands must be two numbers or two strings."
  | divisionByZero => "Division by zero."
  | undefinedVariable name => s!"Undefined variable '{name}'."
  | notCallable => "Can only call functions and classes."
  | invalidUnary => "Invalid unary operator."
  | invalidBinary => "Invalid binary operator."
  | tooDeep => "Maximum nesting depth exceeded."

end RuntimeCause

/-- A failed evaluation, with the token to blame. -/
structure RuntimeError where
  token : Token
  cause : RuntimeCause
deriving Inhabited

namespace RuntimeError

def diagnostic (e : RuntimeError) : Diagnostic :=
  .runtime e.token e.cause.message

theorem phase_diagnostic (e : RuntimeError) : e.diagnostic.phase = .runtime :=
  Diagnostic.phase_of_complaint rfl

def undefined (name : Token) : RuntimeError :=
  { token := name, cause := .undefinedVariable name.lexeme }

end RuntimeError

/-- What only a tree with a hole can run into. -/
inductive EvalFault where
  | missingStatement
  | missingExpression
  | missingValue
deriving DecidableEq, Inhabited, Repr

namespace EvalFault

def message : EvalFault → String
  | missingStatement => "unhandled statement <nil>"
  | missingExpression => "unhandled expression <nil>"
  | missingValue => "runtime error"

end EvalFault

/-- Why a run stops before its end. A loop that has no rounds left says nothing about the program:
with more of them the run goes on. -/
inductive Stop where
  | error (e : RuntimeError)
  | fault (f : EvalFault)
  | exhausted
deriving Inhabited

def defaultEvalDepth : Nat := 10000

/-- The state of a run: the open scopes, how deeply evaluation is nested and may nest, and the lines
printed so far. -/
structure Machine where
  chain : Chain := {}
  depth : Nat := 0
  limit : Nat := defaultEvalDepth
  output : Array String := #[]
deriving Inhabited

/-- A computation on the machine. When it stops early, the machine keeps what was done. -/
abbrev Eval := EStateM Stop Machine

namespace Machine

def printed (m : Machine) : String :=
  m.output.foldl (fun text line => text ++ line ++ "\n") ""

def withoutOutput (m : Machine) : Machine :=
  { m with output := #[] }

end Machine

namespace Eval

def fail (token : Token) (cause : RuntimeCause) : Eval α :=
  throw (.error { token, cause })

/-- Runs a part one level deeper, or blames the token if that is too deep. The level is left again
however the part ends. -/
def nest (token : Token) (part : Eval α) : Eval α := fun m =>
  if m.limit < m.depth + 1 then
    .error (.error { token, cause := .tooDeep }) m
  else
    match part { m with depth := m.depth + 1 } with
    | .ok a m => .ok a { m with depth := m.depth - 1 }
    | .error stop m => .error stop { m with depth := m.depth - 1 }

/-- Runs a part in a new scope, which is closed again however the part ends. -/
def inNewScope (part : Eval α) : Eval α := fun m =>
  match part { m with chain := m.chain.push } with
  | .ok a m => .ok a { m with chain := m.chain.pop }
  | .error stop m => .error stop { m with chain := m.chain.pop }

def get (name : Token) : Eval Value := do
  match (← EStateM.get).chain.find? name.lexeme with
  | some value => return value
  | none => throw (.error (.undefined name))

def assign (name : Token) (value : Value) : Eval Unit := do
  let m ← EStateM.get
  match m.chain.assign? name.lexeme value with
  | some chain => EStateM.set { m with chain }
  | none => throw (.error (.undefined name))

def define (name : String) (value : Value) : Eval Unit :=
  modify fun m => { m with chain := m.chain.define name value }

def print (value : Value) : Eval Unit := do
  match value.text? with
  | some text => modify fun m => { m with output := m.output.push text }
  | none => throw (.fault .missingValue)

end Eval
end LoxLang
