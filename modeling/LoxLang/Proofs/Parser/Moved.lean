import LoxLang.Proofs.Move
import LoxLang.Proofs.Parser.Progress

/-! Parsing looks at the kinds and literals of tokens and never at their places: moved tokens give the
moved tree, the moved complaints and the moved rest. -/
namespace LoxLang

def Reply.move (g : Position → Position) (h : α → α) (reply : Reply α) : Reply α where
  outcome := match reply.outcome with
    | .ok a => .ok (h a)
    | .error e => .error (e.move g)
  errors := reply.errors.map (SyntaxError.move g)
  rest := reply.rest.map (Token.move g)

namespace Parser

/-- On moved tokens the second parser answers what the first one answers, moved. -/
def Moves (g : Position → Position) (h : α → α) (p q : Parser α) : Prop :=
  ∀ stop tokens, q (stop.move g) (tokens.map (Token.move g)) = (p stop tokens).move g h

variable {g : Position → Position}

theorem moves_pure {h : α → α} (a : α) : Moves g h (pure a) (pure (h a)) := fun _ _ => rfl

/-- Moving commutes with sequencing, for complaints and tokens that are left as well as for results. -/
theorem Moves.bind {h : α → α} {k : β → β} {p q : Parser α} {next other : α → Parser β}
    (first : Moves g h p q) (later : ∀ a, Moves g k (next a) (other (h a))) :
    Moves g k (p >>= next) (q >>= other) := by
  intro stop tokens
  change Parser.bind q other _ _ = (Parser.bind p next stop tokens).move g k
  simp only [Parser.bind, first stop tokens]
  cases done : (p stop tokens).outcome with
  | error e => simp [Reply.move, done]
  | ok a =>
    have after := later a stop (p stop tokens).rest
    simp [Reply.move, done] at after ⊢
    simp [after]

theorem headD_move (stop : Token) (tokens : List Token) :
    (tokens.map (Token.move g)).headD (stop.move g) = (tokens.headD stop).move g := by
  cases tokens <;> rfl

theorem moves_peek : Moves g (Token.move g) peek peek := by
  intro stop tokens
  cases tokens <;> rfl

theorem moves_advance : Moves g id advance advance := by
  intro stop tokens
  cases tokens <;> rfl

theorem moves_report (e : SyntaxError) : Moves g id (report e) (report (e.move g)) := fun _ _ => rfl

theorem moves_fail {h : α → α} (e : SyntaxError) :
    Moves g h (fail e) (fail (e.move g)) := fun _ _ => rfl

theorem moves_tooDeep {h : α → α} : Moves g h tooDeep tooDeep :=
  moves_peek.bind fun t => moves_fail (.tooDeep t)

theorem moves_check (kind : TokenKind) : Moves g id (check kind) (check kind) :=
  moves_peek.bind fun _ => moves_pure _

theorem moves_accept? (kinds : List TokenKind) :
    Moves g (Option.map (Token.move g)) (accept? kinds) (accept? kinds) := by
  intro stop tokens
  cases tokens with
  | nil => rfl
  | cons t tokens =>
    by_cases member : t.kind ∈ kinds <;> simp [accept?, member, Reply.move]

theorem moves_expect (expected : Expectation) :
    Moves g (Token.move g) (expect expected) (expect expected) := by
  refine (moves_accept? _).bind ?_
  rintro (_ | t)
  · exact moves_peek.bind fun t => moves_fail (.missing expected t)
  · exact moves_pure t

/-- The loop is bounded by the number of tokens, which moving keeps. -/
theorem moves_repeated {h : α → α} {step : Nat → Parser (Option α)}
    (each : ∀ count, Moves g (Option.map h) (step count) (step count)) :
    Moves g (List.map h) (repeated step) (repeated step) := by
  have bounded : ∀ rounds count, Moves g (List.map h) (upTo step count rounds)
      (upTo step count (rounds.map (Token.move g))) := by
    intro rounds
    induction rounds with
    | nil => exact fun _ => moves_pure []
    | cons t rounds ih =>
      intro count
      refine (each count).bind ?_
      rintro (_ | item)
      · exact moves_pure []
      · exact (ih (count + 1)).bind fun items => moves_pure (item :: items)
  exact fun stop tokens => bounded tokens 0 stop tokens

section Expressions

variable {inner operand value : Parser Expr}

abbrev MovesExpr (g : Position → Position) (p : Parser Expr) : Prop := Moves g (Expr.move g) p p

theorem moves_primary (inner_moves : MovesExpr g inner) : MovesExpr g (primary inner) := by
  refine moves_peek.bind fun token => ?_
  simp only [Token.kind_move]
  split
  case h_7 =>
    refine moves_advance.bind fun _ => inner_moves.bind fun e => ?_
    exact (moves_expect _).bind fun _ => moves_pure (Expr.grouping e)
  case h_8 => exact moves_fail (.expectExpression token)
  all_goals
    refine moves_advance.bind fun _ => ?_
    exact moves_pure (h := Expr.move g) _

theorem moves_nextArgument (inner_moves : MovesExpr g inner) (count : Nat) :
    Moves g (Option.map (Expr.move g)) (nextArgument inner count) (nextArgument inner count) := by
  refine (moves_accept? _).bind ?_
  rintro (_ | comma)
  · exact moves_pure none
  · have last : Moves g (Option.map (Expr.move g)) (do return some (← inner))
        (do return some (← inner)) := inner_moves.bind fun e => moves_pure (some e)
    dsimp only [Option.map_some]
    split
    · exact moves_peek.bind fun t => (moves_report (.tooManyArguments t)).bind fun _ => last
    · exact last

theorem moves_arguments (inner_moves : MovesExpr g inner) :
    Moves g (List.map (Expr.move g)) (arguments inner) (arguments inner) := by
  refine (moves_check _).bind fun closing => ?_
  dsimp only [id]
  split
  · exact moves_pure []
  · refine inner_moves.bind fun first => ?_
    exact (moves_repeated (moves_nextArgument inner_moves)).bind fun more => moves_pure (first :: more)

def moveSuffix (g : Position → Position) (suffix : Token × List Expr) : Token × List Expr :=
  (suffix.1.move g, suffix.2.map (Expr.move g))

theorem moves_callSuffix (inner_moves : MovesExpr g inner) :
    Moves g (Option.map (moveSuffix g)) (callSuffix inner) (callSuffix inner) := by
  refine (moves_accept? _).bind ?_
  rintro (_ | paren)
  · exact moves_pure none
  · refine (moves_arguments inner_moves).bind fun args => ?_
    exact (moves_expect _).bind fun paren => moves_pure (some (paren, args))

/-- A fold over moved items gives the moved result, if each step of it does. -/
theorem foldl_move {f : α → α} {build : Expr → α → Expr}
    (each : ∀ e item, build (e.move g) (f item) = (build e item).move g) (first : Expr)
    (items : List α) :
    (items.map f).foldl build (first.move g) = (items.foldl build first).move g := by
  induction items generalizing first with
  | nil => rfl
  | cons item items ih => rw [List.map_cons, List.foldl_cons, each, ih, List.foldl_cons]

theorem moves_call (inner_moves : MovesExpr g inner) : MovesExpr g (call inner) := by
  refine (moves_primary inner_moves).bind fun first => ?_
  refine (moves_repeated fun _ => moves_callSuffix inner_moves).bind fun suffixes => ?_
  rw [foldl_move]
  · exact moves_pure _
  · intro callee suffix
    simp [moveSuffix, Expr.move, Expr.moveAll_eq]

theorem moves_unary (inner_moves : MovesExpr g inner) (operand_moves : MovesExpr g operand) :
    MovesExpr g (unary inner operand) := by
  refine (moves_accept? _).bind ?_
  rintro (_ | operator)
  · exact moves_call inner_moves
  · exact operand_moves.bind fun e => moves_pure (Expr.unary operator e)

def moveOperation (g : Position → Position) (operation : Token × Expr) : Token × Expr :=
  (operation.1.move g, operation.2.move g)

theorem moves_operation (operand_moves : MovesExpr g operand) (kinds : List TokenKind) :
    Moves g (Option.map (moveOperation g)) (operation operand kinds) (operation operand kinds) := by
  refine (moves_accept? _).bind ?_
  rintro (_ | operator)
  · exact moves_pure none
  · exact operand_moves.bind fun e => moves_pure (some (operator, e))

theorem moves_chain (operand_moves : MovesExpr g operand) (kinds : List TokenKind) :
    MovesExpr g (chain operand kinds) := by
  refine operand_moves.bind fun first => ?_
  refine (moves_repeated fun _ => moves_operation operand_moves kinds).bind fun more => ?_
  rw [foldl_move]
  · exact moves_pure _
  · exact fun _ _ => rfl

theorem moves_equality (operand_moves : MovesExpr g operand) : MovesExpr g (equality operand) :=
  moves_chain (moves_chain (moves_chain (moves_chain operand_moves _) _) _) _

theorem moves_assignment (operand_moves : MovesExpr g operand) (value_moves : MovesExpr g value) :
    MovesExpr g (assignment operand value) := by
  refine (moves_equality operand_moves).bind fun target => (moves_accept? _).bind ?_
  rintro (_ | equals)
  · exact moves_pure target
  · refine value_moves.bind fun assigned => ?_
    cases target with
    | var name => exact moves_pure (Expr.assign name assigned)
    | _ => exact (moves_report (.invalidTarget equals)).bind fun _ => moves_pure (h := Expr.move g) _

/-- No place is ever compared: the parser looks at kinds alone. -/
theorem moves_nested (level : Level) (room : Nat) : MovesExpr g (nested level room) := by
  induction room generalizing level with
  | zero =>
    cases level with
    | assignment => exact moves_tooDeep
    | unary => exact moves_unary moves_tooDeep moves_tooDeep
  | succ room ih =>
    have inner := moves_assignment (ih .unary) (ih .assignment)
    cases level with
    | assignment => exact inner
    | unary => exact moves_unary inner (ih .unary)

theorem moves_expression (room : Nat) : MovesExpr g (expression room) := moves_nested _ room

end Expressions

section Statements

variable {expr : Parser Expr} {stmt : Parser Stmt}

abbrev MovesStmt (g : Position → Position) (p : Parser Stmt) : Prop := Moves g (Stmt.move g) p p

theorem moves_variableDeclaration (expr_moves : MovesExpr g expr) :
    MovesStmt g (variableDeclaration expr) := by
  refine (moves_expect _).bind fun name => (moves_accept? _).bind ?_
  rintro (_ | equals)
  · exact (moves_expect _).bind fun _ => moves_pure (Stmt.declare name)
  · refine expr_moves.bind fun e => ?_
    exact (moves_expect _).bind fun _ => moves_pure (Stmt.define name e)

/-- Recovery stops at the same token. -/
theorem boundary_move (last : Token) (tokens : List Token) :
    boundary (last.move g) (tokens.map (Token.move g)) = (boundary last tokens).map (Token.move g) := by
  induction tokens generalizing last with
  | nil => rfl
  | cons t tokens ih =>
    simp only [List.map_cons, boundary, Token.kind_move, ih]
    split <;> rfl

theorem synchronize_move (tokens : List Token) :
    synchronize (tokens.map (Token.move g)) = (synchronize tokens).map (Token.move g) := by
  cases tokens with
  | nil => rfl
  | cons t tokens => exact boundary_move t tokens

theorem moves_attempt (expr_moves : MovesExpr g expr) (stmt_moves : MovesStmt g stmt) :
    MovesStmt g (attempt expr stmt) := by
  intro stop tokens
  simp only [attempt, headD_move, ← List.map_tail, Token.kind_move]
  split
  · exact moves_variableDeclaration expr_moves stop tokens.tail
  · exact stmt_moves stop tokens

theorem moves_declaration (expr_moves : MovesExpr g expr) (stmt_moves : MovesStmt g stmt) :
    MovesStmt g (declaration expr stmt) := by
  intro stop tokens
  have moved := moves_attempt expr_moves stmt_moves stop tokens
  rw [declaration_eq, declaration_eq, moved, headD_move]
  generalize attempt expr stmt stop tokens = reply
  obtain ⟨outcome, errors, rest⟩ := reply
  cases outcome with
  | error e => simp [settle, Reply.move, Stmt.move, SyntaxError.diagnostic_move, synchronize_move]
  | ok s => cases errors <;> simp [settle, Reply.move, Stmt.move, SyntaxError.diagnostic_move]

theorem moves_nextDeclaration (close : TokenKind) (expr_moves : MovesExpr g expr)
    (stmt_moves : MovesStmt g stmt) :
    Moves g (Option.map (Stmt.move g)) (nextDeclaration close expr stmt)
      (nextDeclaration close expr stmt) := by
  refine moves_peek.bind fun token => ?_
  by_cases ends : token.kind = close ∨ token.kind = .eof
  · have moved : (token.move g).kind = close ∨ (token.move g).kind = .eof := ends
    rw [if_pos ends, if_pos moved]
    exact moves_pure none
  · have moved : ¬ ((token.move g).kind = close ∨ (token.move g).kind = .eof) := ends
    rw [if_neg ends, if_neg moved]
    exact (moves_declaration expr_moves stmt_moves).bind fun s => moves_pure (some s)

theorem moves_statementWith (expr_moves : MovesExpr g expr) (stmt_moves : MovesStmt g stmt) :
    MovesStmt g (statementWith expr stmt) := by
  refine moves_peek.bind fun token => ?_
  simp only [Token.kind_move]
  split
  · refine moves_advance.bind fun _ => (moves_expect _).bind fun _ => expr_moves.bind fun c => ?_
    refine (moves_expect _).bind fun _ => stmt_moves.bind fun s => (moves_accept? _).bind ?_
    rintro (_ | elseWord)
    · exact moves_pure (Stmt.ifThen c s)
    · exact stmt_moves.bind fun other => moves_pure (Stmt.ifElse c s other)
  · refine moves_advance.bind fun _ => (moves_expect _).bind fun _ => expr_moves.bind fun c => ?_
    exact (moves_expect _).bind fun _ => stmt_moves.bind fun s => moves_pure (Stmt.loop c s)
  · refine moves_advance.bind fun _ => expr_moves.bind fun e => ?_
    exact (moves_expect _).bind fun _ => moves_pure (Stmt.print e)
  · have items := moves_nextDeclaration .rightBrace expr_moves stmt_moves
    refine moves_advance.bind fun _ => (moves_repeated fun _ => items).bind fun body => ?_
    refine (moves_expect _).bind fun _ => ?_
    rw [← Stmt.moveAll_eq]
    exact moves_pure (Stmt.block token body)
  · exact expr_moves.bind fun e => (moves_expect _).bind fun _ => moves_pure (Stmt.expression e)

theorem moves_statement (room : Nat) : MovesStmt g (statement room) := by
  induction room with
  | zero => exact moves_tooDeep
  | succ room ih => exact moves_statementWith (moves_expression room) ih

theorem moves_declarations (limit : Nat) :
    Moves g (List.map (Stmt.move g)) (declarations limit) (declarations limit) :=
  moves_repeated fun _ => moves_nextDeclaration _ (moves_expression limit) (moves_statement limit)

end Statements
end Parser
end LoxLang
