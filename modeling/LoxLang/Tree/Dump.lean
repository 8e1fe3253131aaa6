import LoxLang.Text.Quoted
import LoxLang.Tree

/-! The tree in full: every node with the names and values of its fields, one a line. Fields that are
empty are left out. -/
namespace LoxLang

inductive Dump where
  /-- Something that fits on a line. -/
  | leaf (text : String)
  /-- A type that has no fields. -/
  | unit (typeName : String)
  | record (typeName : String) (fields : List (String × Dump))
  | items (typeName : String) (elements : List Dump)
deriving Inhabited

namespace Dump

mutual

/-- The text of a value that stands behind `indent` blanks. -/
def render (indent : String) : Dump → String
  | leaf text => text
  | unit typeName => s!"{typeName}\x7b{indent}\x7d"
  | record typeName fields =>
    s!"{typeName}\x7b\n" ++ renderFields (indent ++ "  ") fields ++ s!"{indent}\x7d"
  | items typeName elements =>
    s!"{typeName}\x7b\n" ++ renderItems (indent ++ "  ") elements ++ s!"{indent}\x7d"

def renderFields (indent : String) : List (String × Dump) → String
  | [] => ""
  | (name, value) :: rest =>
    s!"{indent}{name}: {value.render indent},\n" ++ renderFields indent rest

def renderItems (indent : String) : List Dump → String
  | [] => ""
  | value :: rest => s!"{indent}{value.render indent},\n" ++ renderItems indent rest

end

/-- A text field, left out when empty. -/
def textField (name text : String) : List (String × Dump) :=
  if text = "" then [] else [(name, leaf (Text.quoted text))]

/-- A number field, left out when zero. -/
def intField (name : String) (n : Int) : List (String × Dump) :=
  if n = 0 then [] else [(name, leaf (toString n))]

/-- A token kind, left out when it is that of the end token. -/
def kindField (name : String) (kind : TokenKind) : List (String × Dump) :=
  if kind = .eof then [] else [(name, leaf s!"types.TokenKind({kind.name})")]

end Dump

/-- The field for a value, left out when there is none. -/
def Value.dumpField (name : String) (v : Value) : List (String × Dump) :=
  let text := v.text?.getD ""
  match v with
  | nil => [(name, .unit "types.Nil")]
  | bool _ => [(name, .leaf s!"types.Boolean({text})")]
  | num _ => [(name, .leaf s!"types.Number({text})")]
  | str s => [(name, .leaf s!"types.String({Text.quoted s})")]
  | callable _ => [(name, .leaf text)]
  | void => [(name, .unit "types.NoValue")]
  | missing => []

def Position.dump (p : Position) : Dump :=
  .record "types.Position"
    (Dump.intField "Line" p.line ++ Dump.intField "Column" p.column ++
      Dump.textField "Filename" p.file)

def Token.dump (t : Token) : Dump :=
  .record "types.Token"
    (Dump.kindField "Kind" t.kind ++ Dump.textField "Lexeme" t.lexeme ++
      t.literal.dumpField "Literal" ++ [("Location", t.position.dump)])

def Diagnostic.dumpField (name : String) : Diagnostic → List (String × Dump)
  | unexpected token message =>
    [(name, .record "errors.ParseError"
      (("Token", token.dump) :: Dump.textField "Message" message))]
  | expected kind got message =>
    [(name, .record "errors.ExpectedKindGotKind"
      (Dump.kindField "Expected" kind ++ ("Got", got.dump) :: Dump.textField "Message" message))]
  | _ => []

namespace Expr

def isMissing : Expr → Bool
  | missing => true
  | _ => false

mutual

def dump : Expr → Dump
  | missing => .leaf "nil"
  | literal value token =>
    .record "ast.Literal" (value.dumpField "Value" ++ [("Token", token.dump)])
  | grouping inner => .record "ast.Grouping" (inner.dumpField "Expression")
  | unary operator right =>
    .record "ast.Unary" (("Operator", operator.dump) :: right.dumpField "Right")
  | binary left operator right =>
    .record "ast.Binary"
      (left.dumpField "Left" ++ ("Operator", operator.dump) :: right.dumpField "Right")
  | var name => .record "ast.Variable" [("Name", name.dump)]
  | assign name value => .record "ast.Assign" (("Name", name.dump) :: value.dumpField "Value")
  | call callee paren [] =>
    .record "ast.Call" (callee.dumpField "Callee" ++ [("Paren", paren.dump)])
  | call callee paren arguments =>
    .record "ast.Call"
      (callee.dumpField "Callee" ++
        [("Paren", paren.dump), ("Arguments", .items "[]ast.Expr" (dumpAll arguments))])

/-- The field for an expression, left out when that is missing. -/
def dumpField (name : String) (e : Expr) : List (String × Dump) :=
  if e.isMissing then [] else [(name, e.dump)]

def dumpAll : List Expr → List Dump
  | [] => []
  | e :: es => e.dump :: dumpAll es

end

end Expr

namespace Stmt

def isMissing : Stmt → Bool
  | missing => true
  | _ => false

mutual

def dump : Stmt → Dump
  | missing => .leaf "nil"
  | expression e => .record "ast.ExpressionStmt" (e.dumpField "Expression")
  | print e => .record "ast.PrintStmt" (e.dumpField "Expression")
  | declare name => .record "ast.VarStmt" [("Name", name.dump)]
  | define name initial =>
    .record "ast.VarStmt" (("Name", name.dump) :: initial.dumpField "Initializer")
  | block brace [] => .record "ast.BlockStmt" [("Brace", brace.dump)]
  | block brace body =>
    .record "ast.BlockStmt" [("Brace", brace.dump), ("Statements", .items "[]ast.Stmt" (dumpAll body))]
  | ifThen condition body =>
    .record "ast.IfStmt" (condition.dumpField "Condition" ++ body.dumpField "Then")
  | ifElse condition body other =>
    .record "ast.IfStmt"
      (condition.dumpField "Condition" ++ body.dumpField "Then" ++ other.dumpField "Else")
  | loop condition body =>
    .record "ast.WhileStmt" (condition.dumpField "Condition" ++ body.dumpField "Body")
  | bad start problem => .record "ast.BadStmt" (("From", start.dump) :: problem.dumpField "Err")

/-- The field for a statement, left out when that is missing. -/
def dumpField (name : String) (s : Stmt) : List (String × Dump) :=
  if s.isMissing then [] else [(name, s.dump)]

def dumpAll : List Stmt → List Dump
  | [] => []
  | s :: ss => s.dump :: dumpAll ss

end

end Stmt

def dumpProgram : List Stmt → String
  | [] => "nil"
  | program => (Dump.items "[]ast.Stmt" (Stmt.dumpAll program)).render ""

end LoxLang
