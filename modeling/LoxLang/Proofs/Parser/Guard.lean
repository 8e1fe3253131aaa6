import LoxLang.Proofs.Parser.Program

/-! The guard against deep nesting is exact. A row of tokens that is parsed without complaint at one limit is
parsed to the same program at every limit that its nesting fits, and at any other the first complaint is that
the nesting is too deep: up to there, less room makes no difference to the run. -/
namespace LoxLang
namespace Parser

/-- Where the second parser accepts, the first one gives the same answer, or what it complains about first is
that the nesting is too deep. -/
def Guarded (stop : Token) (p roomy : Parser α) : Prop :=
  ∀ tokens a rest, roomy.Accepts stop tokens a rest →
    p.Accepts stop tokens a rest ∨ ∃ t, (p stop tokens).errors.head? = some (.tooDeep t)

variable {stop : Token}

theorem guarded_refl (p : Parser α) : Guarded stop p p := by
  intro tokens a rest accepted
  exact .inl accepted

theorem guarded_tooDeep (roomy : Parser α) : Guarded stop tooDeep roomy := by
  intro tokens a rest _
  exact .inr ⟨tokens.headD stop, rfl⟩

/-- Complaints that were made stay the first ones. -/
theorem bind_head {p : Parser α} {f : α → Parser β} (first : (p stop tokens).errors.head? = some e) :
    ((p >>= f) stop tokens).errors.head? = some e := by
  change (Parser.bind p f stop tokens).errors.head? = some e
  simp only [Parser.bind]
  cases (p stop tokens).outcome with
  | error _ => exact first
  | ok a => rw [List.head?_append, first, Option.some_or]

/-- Once the first parser has complained about the nesting, later complaints do not come before that one. -/
theorem Guarded.bind {p roomy : Parser α} {f g : α → Parser β} (first : Guarded stop p roomy)
    (second : ∀ a, Guarded stop (f a) (g a)) : Guarded stop (p >>= f) (roomy >>= g) := by
  intro tokens b rest accepted
  obtain ⟨a, mid, before, after⟩ := accepts_bind.mp accepted
  rcases first tokens a mid before with same | ⟨t, deep⟩
  · rcases second a mid b rest after with also | ⟨t, deep⟩
    · exact .inl (accepts_bind.mpr ⟨a, mid, same, also⟩)
    · exact .inr ⟨t, by rw [same.bind_eq, deep]⟩
  · exact .inr ⟨t, bind_head deep⟩

/-- Both loops have the same number of rounds at most, one for each token. -/
theorem guarded_repeated {step roomy : Nat → Parser (Option α)}
    (each : ∀ count, Guarded stop (step count) (roomy count)) :
    Guarded stop (repeated step) (repeated roomy) := by
  have bounded : ∀ rounds count, Guarded stop (upTo step count rounds) (upTo roomy count rounds) := by
    intro rounds
    induction rounds with
    | nil => exact fun _ => guarded_refl _
    | cons t rounds ih =>
      intro count
      refine (each count).bind ?_
      rintro (_ | item)
      · exact guarded_refl _
      · exact (ih (count + 1)).bind fun _ => guarded_refl _
  intro tokens a rest accepted
  exact bounded tokens 0 tokens a rest accepted

section Expressions

variable {inner innerRoomy operand operandRoomy value valueRoomy : Parser Expr}

theorem guarded_primary (inner_guarded : Guarded stop inner innerRoomy) :
    Guarded stop (primary inner) (primary innerRoomy) := by
  refine (guarded_refl peek).bind fun token => ?_
  split
  case h_7 =>
    refine (guarded_refl _).bind fun _ => ?_
    exact inner_guarded.bind fun _ => guarded_refl _
  all_goals exact guarded_refl _

theorem guarded_nextArgument (inner_guarded : Guarded stop inner innerRoomy) (count : Nat) :
    Guarded stop (nextArgument inner count) (nextArgument innerRoomy count) := by
  refine (guarded_refl _).bind ?_
  rintro (_ | comma)
  · exact guarded_refl _
  · have last : Guarded stop (do return some (← inner)) (do return some (← innerRoomy)) :=
      inner_guarded.bind fun _ => guarded_refl _
    dsimp only
    split
    · exact (guarded_refl _).bind fun _ => (guarded_refl _).bind fun _ => last
    · exact last

theorem guarded_arguments (inner_guarded : Guarded stop inner innerRoomy) :
    Guarded stop (arguments inner) (arguments innerRoomy) := by
  refine (guarded_refl _).bind fun closing => ?_
  split
  · exact guarded_refl _
  · refine inner_guarded.bind fun first => ?_
    exact (guarded_repeated (guarded_nextArgument inner_guarded)).bind fun _ => guarded_refl _

theorem guarded_call (inner_guarded : Guarded stop inner innerRoomy) :
    Guarded stop (call inner) (call innerRoomy) := by
  have suffix : Guarded stop (callSuffix inner) (callSuffix innerRoomy) := by
    refine (guarded_refl _).bind ?_
    rintro (_ | paren)
    · exact guarded_refl _
    · exact (guarded_arguments inner_guarded).bind fun _ => guarded_refl _
  refine (guarded_primary inner_guarded).bind fun first => ?_
  exact (guarded_repeated fun _ => suffix).bind fun _ => guarded_refl _

theorem guarded_unary (inner_guarded : Guarded stop inner innerRoomy)
    (operand_guarded : Guarded stop operand operandRoomy) :
    Guarded stop (unary inner operand) (unary innerRoomy operandRoomy) := by
  refine (guarded_refl _).bind ?_
  rintro (_ | operator)
  · exact guarded_call inner_guarded
  · exact operand_guarded.bind fun _ => guarded_refl _

theorem guarded_chain (operand_guarded : Guarded stop operand operandRoomy) (kinds : List TokenKind) :
    Guarded stop (chain operand kinds) (chain operandRoomy kinds) := by
  have step : Guarded stop (operation operand kinds) (operation operandRoomy kinds) := by
    refine (guarded_refl _).bind ?_
    rintro (_ | operator)
    · exact guarded_refl _
    · exact operand_guarded.bind fun _ => guarded_refl _
  refine operand_guarded.bind fun first => ?_
  exact (guarded_repeated fun _ => step).bind fun _ => guarded_refl _

theorem guarded_assignment (operand_guarded : Guarded stop operand operandRoomy)
    (value_guarded : Guarded stop value valueRoomy) :
    Guarded stop (assignment operand value) (assignment operandRoomy valueRoomy) := by
  have target : Guarded stop (equality operand) (equality operandRoomy) :=
    guarded_chain (guarded_chain (guarded_chain (guarded_chain operand_guarded _) _) _) _
  refine target.bind fun target => (guarded_refl _).bind ?_
  rintro (_ | equals)
  · exact guarded_refl _
  · exact value_guarded.bind fun _ => guarded_refl _

/-- Expressions are guarded at every level, whatever the two amounts of room are. -/
theorem guarded_nested (level : Level) (room other : Nat) :
    Guarded stop (nested level room) (nested level other) := by
  induction room generalizing level other with
  | zero =>
    cases level with
    | assignment => exact guarded_tooDeep _
    | unary =>
      cases other with
      | zero => exact guarded_refl _
      | succ other => exact guarded_unary (guarded_tooDeep _) (guarded_tooDeep _)
  | succ room ih =>
    cases other with
    | zero =>
      cases level with
      | assignment =>
        intro tokens e rest accepted
        exact absurd accepted not_accepts_tooDeep
      | unary =>
        -- Without room nothing below a unary operator or inside parentheses is accepted.
        apply guarded_unary
        · intro tokens e rest accepted
          exact absurd accepted not_accepts_tooDeep
        · intro tokens e rest accepted
          exact absurd accepted not_accepts_tooDeep
    | succ other =>
      have inside := guarded_assignment (ih .unary other) (ih .assignment other)
      cases level with
      | assignment => exact inside
      | unary => exact guarded_unary inside (ih .unary other)

theorem guarded_expression (room other : Nat) : Guarded stop (expression room) (expression other) :=
  guarded_nested .assignment room other

end Expressions

section Statements

variable {expr exprRoomy : Parser Expr} {stmt stmtRoomy : Parser Stmt}
  (expr_guarded : Guarded stop expr exprRoomy) (stmt_guarded : Guarded stop stmt stmtRoomy)
include expr_guarded

theorem guarded_variableDeclaration :
    Guarded stop (variableDeclaration expr) (variableDeclaration exprRoomy) := by
  refine (guarded_refl _).bind fun name => (guarded_refl _).bind ?_
  rintro (_ | equals)
  · exact guarded_refl _
  · exact expr_guarded.bind fun _ => guarded_refl _

include stmt_guarded

theorem guarded_attempt : Guarded stop (attempt expr stmt) (attempt exprRoomy stmtRoomy) := by
  intro tokens s rest accepted
  unfold Accepts attempt at *
  split
  case isTrue begins =>
    rw [if_pos begins] at accepted
    exact guarded_variableDeclaration expr_guarded tokens.tail s rest accepted
  case isFalse begins =>
    rw [if_neg begins] at accepted
    exact stmt_guarded tokens s rest accepted

variable (expr_orderly : Orderly expr) (stmt_orderly : Orderly stmt)
  (roomy_orderly : Orderly exprRoomy) (roomyStmt_orderly : Orderly stmtRoomy)
include expr_orderly stmt_orderly roomy_orderly roomyStmt_orderly

theorem guarded_declaration : Guarded stop (declaration expr stmt) (declaration exprRoomy stmtRoomy) := by
  intro tokens s rest accepted
  rw [accepts_declaration roomy_orderly roomyStmt_orderly] at accepted
  rw [accepts_declaration expr_orderly stmt_orderly, declaration_errors]
  exact guarded_attempt expr_guarded stmt_guarded tokens s rest accepted

theorem guarded_nextDeclaration (close : TokenKind) :
    Guarded stop (nextDeclaration close expr stmt) (nextDeclaration close exprRoomy stmtRoomy) := by
  refine (guarded_refl peek).bind fun token => ?_
  split
  · exact guarded_refl _
  · exact (guarded_declaration expr_guarded stmt_guarded expr_orderly stmt_orderly roomy_orderly
      roomyStmt_orderly).bind fun _ => guarded_refl _

theorem guarded_statementWith :
    Guarded stop (statementWith expr stmt) (statementWith exprRoomy stmtRoomy) := by
  refine (guarded_refl peek).bind fun token => ?_
  split
  case h_1 =>
    refine (guarded_refl _).bind fun _ => (guarded_refl _).bind fun _ => expr_guarded.bind fun _ => ?_
    refine (guarded_refl _).bind fun _ => stmt_guarded.bind fun _ => (guarded_refl _).bind ?_
    rintro (_ | otherwise)
    · exact guarded_refl _
    · exact stmt_guarded.bind fun _ => guarded_refl _
  case h_2 =>
    refine (guarded_refl _).bind fun _ => (guarded_refl _).bind fun _ => expr_guarded.bind fun _ => ?_
    exact (guarded_refl _).bind fun _ => stmt_guarded.bind fun _ => guarded_refl _
  case h_3 =>
    refine (guarded_refl _).bind fun _ => ?_
    exact expr_guarded.bind fun _ => guarded_refl _
  case h_4 =>
    have next := guarded_nextDeclaration expr_guarded stmt_guarded expr_orderly stmt_orderly roomy_orderly
      roomyStmt_orderly .rightBrace
    refine (guarded_refl _).bind fun _ => ?_
    exact (guarded_repeated fun _ => next).bind fun _ => guarded_refl _
  case h_5 => exact expr_guarded.bind fun _ => guarded_refl _

end Statements

/-- Neither room has to be the larger one. -/
theorem guarded_statement (room other : Nat) : Guarded stop (statement room) (statement other) := by
  induction room generalizing other with
  | zero => exact guarded_tooDeep _
  | succ room ih =>
    cases other with
    | zero =>
      intro tokens s rest accepted
      exact absurd accepted not_accepts_tooDeep
    | succ other =>
      exact guarded_statementWith (guarded_expression room other) (ih other) (orderly_expression room)
        (orderly_statement room) (orderly_expression other) (orderly_statement other)

theorem guarded_declarations (limit other : Nat) :
    Guarded stop (declarations limit) (declarations other) := by
  apply guarded_repeated
  intro _
  exact guarded_nextDeclaration (guarded_expression limit other) (guarded_statement limit other)
    (orderly_expression limit) (orderly_statement limit) (orderly_expression other)
    (orderly_statement other) .eof

end Parser

/-- Tokens that are parsed without complaint at one limit are parsed so at another exactly if what was parsed
nests no deeper than it, and then to the same program. At any other limit the first complaint is that the
nesting is too deep. -/
theorem nesting_guard_exact {limit : Nat} {tokens : List Token} (clean : (parseTokens limit tokens).2 = [])
    (other : Nat) :
    ((parseTokens other tokens).2 = [] ↔ Stmt.nestingAll (parseTokens limit tokens).1 ≤ other) ∧
      (Stmt.nestingAll (parseTokens limit tokens).1 ≤ other →
        parseTokens other tokens = parseTokens limit tokens) ∧
      (other < Stmt.nestingAll (parseTokens limit tokens).1 → ∃ token later,
        (parseTokens other tokens).2.map SyntaxError.diagnostic =
          .unexpected token "Expression nesting too deep." :: later) := by
  obtain ⟨rest, accepted⟩ := parseTokens_accepts.mp (Prod.ext rfl clean)
  have ended := stopToken_kind tokens
  obtain ⟨canonical, _, reading, closed⟩ := (Parser.accepts_program ended).mp accepted
  have fits (enough : Stmt.nestingAll (parseTokens limit tokens).1 ≤ other) :
      parseTokens other tokens = ((parseTokens limit tokens).1, []) :=
    parseTokens_accepts.mpr
      ⟨rest, (Parser.accepts_program ended).mpr ⟨canonical, enough, reading, closed⟩⟩
  have deep (short : other < Stmt.nestingAll (parseTokens limit tokens).1) :
      ∃ token, (parseTokens other tokens).2.head? = some (.tooDeep token) := by
    rcases Parser.guarded_declarations other limit _ _ _ accepted with same | complaint
    · exact absurd ((Parser.accepts_program ended).mp same).2.1 (Nat.not_le_of_lt short)
    · exact complaint
  refine ⟨⟨fun none => ?_, fun enough => congrArg Prod.snd (fits enough)⟩, fun enough => ?_, fun short => ?_⟩
  · by_contra short
    obtain ⟨token, first⟩ := deep (Nat.lt_of_not_le short)
    rw [none] at first
    cases first
  · exact (fits enough).trans (Prod.ext rfl clean.symm)
  · obtain ⟨token, first⟩ := deep short
    obtain ⟨later, all⟩ := List.head?_eq_some_iff.mp first
    exact ⟨token, later.map SyntaxError.diagnostic, congrArg _ all⟩

/-- The condition of a loop and its body nest equally deep: four levels are enough, and three are not. -/
theorem nesting_guard_exact_loop :
    let tokens := (scan "" "while (f(-a)) \x7b var b = !c; \x7d".toList).1
    (parseTokens 9 tokens).2 = [] ∧ parseTokens 4 tokens = parseTokens 9 tokens ∧
      ∃ token later, (parseTokens 3 tokens).2.map SyntaxError.diagnostic =
        .unexpected token "Expression nesting too deep." :: later := by
  intro tokens
  have clean : (parseTokens 9 tokens).2 = [] := by decide +kernel
  refine ⟨clean, (nesting_guard_exact clean 4).2.1 ?_, (nesting_guard_exact clean 3).2.2 ?_⟩
  · decide +kernel
  · decide +kernel

end LoxLang
