import LoxLang.Machine
import LoxLang.Parser

/-! Moving things to other places: the tokens, trees and complaints stay as they are, except that every
position in them is changed by one function. -/
namespace LoxLang

variable (g : Position → Position)

def Token.move (t : Token) : Token := { t with position := g t.position }

namespace Token

@[simp] theorem kind_move (t : Token) : (t.move g).kind = t.kind := rfl

end Token

def LexError.move (e : LexError) : LexError := { e with position := g e.position }

namespace Diagnostic

mutual

def move : Diagnostic → Diagnostic
  | absent => absent
  | plain message => plain message
  | lexical position message => lexical (g position) message
  | unexpected token message => unexpected (token.move g) message
  | expected kind got message => expected kind (got.move g) message
  | runtime token message => runtime (token.move g) message
  | traced inner => traced inner.move
  | wrapped context inner => wrapped context inner.move
  | list items => list (moveAll items)

def moveAll : List Diagnostic → List Diagnostic
  | [] => []
  | item :: items => item.move :: moveAll items

end

end Diagnostic

namespace SyntaxError

def move : SyntaxError → SyntaxError
  | expectExpression token => expectExpression (token.move g)
  | tooDeep token => tooDeep (token.move g)
  | invalidTarget token => invalidTarget (token.move g)
  | tooManyArguments token => tooManyArguments (token.move g)
  | missing expected got => missing expected (got.move g)

theorem diagnostic_move (e : SyntaxError) : (e.move g).diagnostic = e.diagnostic.move g := by
  cases e <;> simp [move, diagnostic, Diagnostic.move]

end SyntaxError

theorem LexError.diagnostic_move (e : LexError) : (e.move g).diagnostic = e.diagnostic.move g := by
  simp [move, diagnostic, Diagnostic.move]

namespace Expr

mutual

def move : Expr → Expr
  | missing => missing
  | literal value token => literal value (token.move g)
  | grouping inner => grouping inner.move
  | unary operator right => unary (operator.move g) right.move
  | binary left operator right => binary left.move (operator.move g) right.move
  | var name => var (name.move g)
  | assign name value => assign (name.move g) value.move
  | call callee paren arguments => call callee.move (paren.move g) (moveAll arguments)

def moveAll : List Expr → List Expr
  | [] => []
  | e :: es => e.move :: moveAll es

end

theorem moveAll_eq (es : List Expr) : moveAll g es = es.map (move g) := by
  induction es with
  | nil => rfl
  | cons e es ih => rw [moveAll, ih, List.map_cons]

end Expr

namespace Stmt

mutual

def move : Stmt → Stmt
  | missing => missing
  | expression e => expression (e.move g)
  | print e => print (e.move g)
  | declare name => declare (name.move g)
  | define name initializer => define (name.move g) (initializer.move g)
  | block brace body => block (brace.move g) (moveAll body)
  | ifThen condition thenBranch => ifThen (condition.move g) thenBranch.move
  | ifElse condition thenBranch elseBranch =>
    ifElse (condition.move g) thenBranch.move elseBranch.move
  | loop condition body => loop (condition.move g) body.move
  | bad start error => bad (start.move g) (error.move g)

def moveAll : List Stmt → List Stmt
  | [] => []
  | s :: ss => s.move :: moveAll ss

end

theorem moveAll_eq (ss : List Stmt) : moveAll g ss = ss.map (move g) := by
  induction ss with
  | nil => rfl
  | cons s ss ih => rw [moveAll, ih, List.map_cons]

end Stmt

def Parsed.move (p : Parsed) : Parsed where
  program := p.program.map (Stmt.move g)
  lexical := p.lexical.map (LexError.move g)
  syntactic := p.syntactic.map (SyntaxError.move g)

/-- The complaints as diagnostics move with them. -/
theorem Parsed.diagnostics_move (p : Parsed) :
    (p.move g).diagnostics = p.diagnostics.map (Diagnostic.move g) := by
  simp [diagnostics, move, Function.comp_def, LexError.diagnostic_move, SyntaxError.diagnostic_move]

def RuntimeError.move (e : RuntimeError) : RuntimeError := { e with token := e.token.move g }

def Stop.move : Stop → Stop
  | error e => error (e.move g)
  | fault f => fault f
  | exhausted => exhausted

end LoxLang
