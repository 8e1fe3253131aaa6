import LoxLang.Proofs.Parser.Expression

/-! The statement parser accepts exactly the canonical statements. A statement that ends in an `if`
without `else` is accepted only where no `else` follows, so that each `else` is taken by the nearest
`if`; a list of statements is accepted up to a token that cannot begin one. -/
namespace LoxLang
namespace Parser

/-- The statement stands at the start of the tokens, nests no deeper than `room`, and takes every
`else` that belongs to it. -/
structure StmtFits (declares : Bool) (room : Nat) (s : Stmt) (tokens rest : List Token) : Prop where
  canonical : s.Canonical declares
  shallow : s.nesting ≤ room
  reading : Reads s.yield tokens rest
  settled : s.openEnded = true → Avoids [.elseWord] rest

/-- The parser accepts exactly the statements that stand at the start of its tokens. -/
def ParsesStmt (p : Parser Stmt) (stop : Token) (declares : Bool) (room : Nat) : Prop :=
  ∀ tokens s rest, p.Accepts stop tokens s rest ↔ StmtFits declares room s tokens rest

theorem StmtFits.start (fits : StmtFits declares room s tokens rest) :
    ∃ t more, tokens = t :: more ∧ t.kind.startsDeclaration = true ∧
      (declares = false → t.kind ≠ .varWord) := by
  obtain ⟨leaf, leaves, same, starts, plain⟩ := fits.canonical.starts
  have reading := fits.reading
  rw [same, reads_cons] at reading
  obtain ⟨t, more, rfl, here, _⟩ := reading
  exact ⟨t, more, rfl, by rw [here.kind_eq]; exact starts, by rw [here.kind_eq]; exact plain⟩

/-- Statements do not begin with `else`, so an `else` can only come after them. -/
theorem avoids_else (canonical : Stmt.CanonicalAll body)
    (reading : Reads (Stmt.yieldAll body) tokens rest) (last : Avoids [.elseWord] rest) :
    Avoids [.elseWord] tokens := by
  cases body with
  | nil =>
    obtain rfl := reads_nil.mp reading
    exact last
  | cons s body =>
    obtain ⟨_, here, _⟩ := reads_append.mp reading
    obtain ⟨leaf, leaves, same, starts, _⟩ := canonical.1.starts
    rw [same, reads_cons] at here
    obtain ⟨t, more, rfl, here, _⟩ := here
    rw [avoids_cons, here.kind_eq, List.mem_singleton]
    intro kind
    simp [kind, TokenKind.startsDeclaration, TokenKind.startsExpression] at starts

section Shapes

variable {room : Nat} {tokens rest : List Token}

theorem fits_expression : StmtFits false (room + 1) (.expression e) tokens rest ↔
    ∃ semicolon, semicolon.kind = .semicolon ∧ Stands 0 room e tokens (semicolon :: rest) := by
  constructor
  · rintro ⟨canonical, shallow, reading, _⟩
    simp only [Stmt.yield, reads_append, reads_cons, reads_nil] at reading
    obtain ⟨_, reading, semicolon, _, rfl, closing, rfl⟩ := reading
    exact ⟨semicolon, closing, canonical, Nat.zero_le _, Nat.le_of_succ_le_succ shallow, reading⟩
  · rintro ⟨semicolon, closing, canonical, _, shallow, reading⟩
    refine ⟨canonical, Nat.succ_le_succ shallow, ?_, by simp [Stmt.openEnded]⟩
    simp only [Stmt.yield, reads_append, reads_cons, reads_nil]
    exact ⟨_, reading, semicolon, _, rfl, closing, rfl⟩

theorem fits_print : StmtFits false (room + 1) (.print e) tokens rest ↔
    ∃ word more semicolon, tokens = word :: more ∧ word.kind = .printWord ∧
      semicolon.kind = .semicolon ∧ Stands 0 room e more (semicolon :: rest) := by
  constructor
  · rintro ⟨canonical, shallow, reading, _⟩
    simp only [Stmt.yield, reads_append, reads_cons, reads_nil] at reading
    obtain ⟨word, more, rfl, begins, _, reading, semicolon, _, rfl, closing, rfl⟩ := reading
    exact ⟨word, more, semicolon, rfl, begins, closing, canonical, Nat.zero_le _,
      Nat.le_of_succ_le_succ shallow, reading⟩
  · rintro ⟨word, more, semicolon, rfl, begins, closing, canonical, _, shallow, reading⟩
    refine ⟨canonical, Nat.succ_le_succ shallow, ?_, by simp [Stmt.openEnded]⟩
    simp only [Stmt.yield, reads_append, reads_cons, reads_nil]
    exact ⟨word, more, rfl, begins, _, reading, semicolon, _, rfl, closing, rfl⟩

theorem fits_block : StmtFits false (room + 1) (.block brace body) tokens rest ↔
    ∃ more close, tokens = brace :: more ∧ brace.kind = .leftBrace ∧ close.kind = .rightBrace ∧
      Stmt.CanonicalAll body ∧ Stmt.nestingAll body ≤ room ∧
      Reads (Stmt.yieldAll body) more (close :: rest) := by
  constructor
  · rintro ⟨⟨begins, canonical⟩, shallow, reading, _⟩
    simp only [Stmt.yield, reads_append, reads_cons, reads_nil] at reading
    obtain ⟨_, more, rfl, rfl, _, reading, close, _, rfl, closing, rfl⟩ := reading
    exact ⟨more, close, rfl, begins, closing, canonical, Nat.le_of_succ_le_succ shallow, reading⟩
  · rintro ⟨more, close, rfl, begins, closing, canonical, nested, reading⟩
    refine ⟨⟨begins, canonical⟩, Nat.succ_le_succ nested, ?_, by simp [Stmt.openEnded]⟩
    simp only [Stmt.yield, reads_append, reads_cons, reads_nil]
    exact ⟨brace, more, rfl, rfl, _, reading, close, _, rfl, closing, rfl⟩

theorem fits_ifThen : StmtFits false (room + 1) (.ifThen condition thenBranch) tokens rest ↔
    ∃ word paren more close mid, tokens = word :: paren :: more ∧ word.kind = .ifWord ∧
      paren.kind = .leftParen ∧ close.kind = .rightParen ∧
      Stands 0 room condition more (close :: mid) ∧
      StmtFits false room thenBranch mid rest ∧ Avoids [.elseWord] rest := by
  constructor
  · rintro ⟨⟨canonical, branch⟩, shallow, reading, settled⟩
    obtain ⟨nested, branch_nested⟩ := Nat.max_le.mp (Nat.le_of_succ_le_succ shallow)
    simp only [Stmt.yield, reads_append, reads_cons] at reading
    obtain ⟨word, _, rfl, begins, paren, more, rfl, opening, _, reading, close, mid, rfl, closing,
      branch_reading⟩ := reading
    exact ⟨word, paren, more, close, mid, rfl, begins, opening, closing,
      ⟨canonical, Nat.zero_le _, nested, reading⟩,
      ⟨branch, branch_nested, branch_reading, fun _ => settled rfl⟩, settled rfl⟩
  · rintro ⟨word, paren, more, close, mid, rfl, begins, opening, closing, stands, branch, avoids⟩
    refine ⟨⟨stands.canonical, branch.canonical⟩, ?_, ?_, fun _ => avoids⟩
    · exact Nat.succ_le_succ (Nat.max_le.mpr ⟨stands.shallow, branch.shallow⟩)
    · simp only [Stmt.yield, reads_append, reads_cons]
      exact ⟨word, _, rfl, begins, paren, more, rfl, opening, _, stands.reading, close, mid, rfl, closing,
        branch.reading⟩

/-- The branch before the `else` cannot be open-ended, or the `else` would belong to a statement inside it. -/
theorem fits_ifElse :
    StmtFits false (room + 1) (.ifElse condition thenBranch elseBranch) tokens rest ↔
    ∃ word paren more close mid other next, tokens = word :: paren :: more ∧ word.kind = .ifWord ∧
      paren.kind = .leftParen ∧ close.kind = .rightParen ∧ other.kind = .elseWord ∧
      Stands 0 room condition more (close :: mid) ∧
      StmtFits false room thenBranch mid (other :: next) ∧
      StmtFits false room elseBranch next rest := by
  constructor
  · rintro ⟨⟨canonical, branch, ends, other_branch⟩, shallow, reading, settled⟩
    obtain ⟨nested, branches⟩ := Nat.max_le.mp (Nat.le_of_succ_le_succ shallow)
    obtain ⟨branch_nested, other_nested⟩ := Nat.max_le.mp branches
    simp only [Stmt.yield, reads_append, reads_cons] at reading
    obtain ⟨word, _, rfl, begins, paren, more, rfl, opening, _, reading, close, mid, rfl, closing, _,
      branch_reading, other, next, rfl, turns, other_reading⟩ := reading
    exact ⟨word, paren, more, close, mid, other, next, rfl, begins, opening, closing, turns,
      ⟨canonical, Nat.zero_le _, nested, reading⟩,
      ⟨branch, branch_nested, branch_reading, fun open_ended => by simp [ends] at open_ended⟩,
      ⟨other_branch, other_nested, other_reading, settled⟩⟩
  · rintro ⟨word, paren, more, close, mid, other, next, rfl, begins, opening, closing, turns, stands,
      branch, other_branch⟩
    -- The first branch cannot end in an open `if`, as that would have taken the `else`.
    have ends : thenBranch.openEnded = false := by
      rw [Bool.eq_false_iff]
      intro open_ended
      simpa [turns] using branch.settled open_ended
    refine ⟨⟨stands.canonical, branch.canonical, ends, other_branch.canonical⟩, ?_, ?_,
      other_branch.settled⟩
    · exact Nat.succ_le_succ (Nat.max_le.mpr
        ⟨stands.shallow, Nat.max_le.mpr ⟨branch.shallow, other_branch.shallow⟩⟩)
    · simp only [Stmt.yield, reads_append, reads_cons]
      exact ⟨word, _, rfl, begins, paren, more, rfl, opening, _, stands.reading, close, mid, rfl, closing,
        _, branch.reading, other, next, rfl, turns, other_branch.reading⟩

theorem fits_loop : StmtFits false (room + 1) (.loop condition body) tokens rest ↔
    ∃ word paren more close mid, tokens = word :: paren :: more ∧ word.kind = .whileWord ∧
      paren.kind = .leftParen ∧ close.kind = .rightParen ∧
      Stands 0 room condition more (close :: mid) ∧ StmtFits false room body mid rest := by
  constructor
  · rintro ⟨⟨canonical, branch⟩, shallow, reading, settled⟩
    obtain ⟨nested, branch_nested⟩ := Nat.max_le.mp (Nat.le_of_succ_le_succ shallow)
    simp only [Stmt.yield, reads_append, reads_cons] at reading
    obtain ⟨word, _, rfl, begins, paren, more, rfl, opening, _, reading, close, mid, rfl, closing,
      branch_reading⟩ := reading
    exact ⟨word, paren, more, close, mid, rfl, begins, opening, closing,
      ⟨canonical, Nat.zero_le _, nested, reading⟩, ⟨branch, branch_nested, branch_reading, settled⟩⟩
  · rintro ⟨word, paren, more, close, mid, rfl, begins, opening, closing, stands, branch⟩
    refine ⟨⟨stands.canonical, branch.canonical⟩, ?_, ?_, branch.settled⟩
    · exact Nat.succ_le_succ (Nat.max_le.mpr ⟨stands.shallow, branch.shallow⟩)
    · simp only [Stmt.yield, reads_append, reads_cons]
      exact ⟨word, _, rfl, begins, paren, more, rfl, opening, _, stands.reading, close, mid, rfl, closing,
        branch.reading⟩

end Shapes

section Ended

variable {stop : Token} {expr : Parser Expr} {stmt : Parser Stmt} {room : Nat}
  (ended : stop.kind = .eof) (expr_parses : Parses expr stop 0 room)

include expr_parses in
/-- The word `var` has been taken before. -/
theorem accepts_variableDeclaration :
    (variableDeclaration expr).Accepts stop tokens s rest ↔
      (∃ name semicolon, s = .declare name ∧ tokens = name :: semicolon :: rest ∧
        name.kind = .identifier ∧ semicolon.kind = .semicolon) ∨
      ∃ name equals initializer semicolon more, s = .define name initializer ∧
        tokens = name :: equals :: more ∧ name.kind = .identifier ∧ equals.kind = .equal ∧
        Stands 0 room initializer more (semicolon :: rest) ∧ semicolon.kind = .semicolon := by
  unfold variableDeclaration
  rw [accepts_bind]
  constructor
  · rintro ⟨name, _, first, after⟩
    obtain ⟨rfl, kind⟩ := accepts_expect.mp first
    rcases accepts_accept?_bind.mp after with ⟨_, after⟩ | ⟨equals, more, rfl, member, after⟩
    · simp only [accepts_bind, accepts_expect, accepts_pure] at after
      obtain ⟨semicolon, _, ⟨rfl, closing⟩, rfl, rfl⟩ := after
      exact .inl ⟨name, semicolon, rfl, rfl, kind, closing⟩
    · simp only [accepts_bind, accepts_expect, accepts_pure] at after
      obtain ⟨initializer, _, accepted, semicolon, _, ⟨rfl, closing⟩, rfl, rfl⟩ := after
      have fits := (expr_parses _ _ _).mp accepted
      exact .inr ⟨name, equals, initializer, semicolon, more, rfl, rfl, kind, by simpa using member,
        fits.toStands, closing⟩
  · rintro (⟨name, semicolon, rfl, rfl, kind, closing⟩ |
      ⟨name, equals, initializer, semicolon, more, rfl, rfl, kind, assigns, stands, closing⟩)
    · refine ⟨name, _, accepts_expect.mpr ⟨rfl, kind⟩, accepts_accept?_bind.mpr (.inl ⟨?_, ?_⟩)⟩
      · simp [closing]
      · simp only [accepts_bind, accepts_expect, accepts_pure]
        exact ⟨semicolon, rest, ⟨rfl, closing⟩, trivial, rfl⟩
    · refine ⟨name, _, accepts_expect.mpr ⟨rfl, kind⟩, accepts_accept?_bind.mpr (.inr ?_)⟩
      refine ⟨equals, more, rfl, by simp [assigns], ?_⟩
      simp only [accepts_bind, accepts_expect, accepts_pure]
      have fits : Fits 0 room initializer more (semicolon :: rest) :=
        ⟨stands, closed_cons (.inr (.inr closing))⟩
      exact ⟨initializer, _, (expr_parses _ _ _).mpr fits, semicolon, rest, ⟨rfl, closing⟩, rfl, rfl⟩

theorem accepts_attempt_var (begins : t.kind = .varWord) :
    (attempt expr stmt).Accepts stop (t :: tokens) s rest ↔
      (variableDeclaration expr).Accepts stop tokens s rest := by
  simp [Accepts, attempt, begins]

theorem accepts_attempt_plain (begins : (tokens.headD stop).kind ≠ .varWord) :
    (attempt expr stmt).Accepts stop tokens s rest ↔ stmt.Accepts stop tokens s rest := by
  rw [Accepts, attempt, if_neg begins, Accepts]

include ended expr_parses

/-- Soundness of one declaration or statement. -/
theorem attempt_fits (stmt_parses : ParsesStmt stmt stop false room)
    (accepted : (attempt expr stmt).Accepts stop tokens s rest) : StmtFits true room s tokens rest := by
  by_cases begins : (tokens.headD stop).kind = .varWord
  · cases tokens with
    | nil => simp [ended] at begins
    | cons var tokens =>
      rcases (accepts_variableDeclaration expr_parses).mp ((accepts_attempt_var begins).mp accepted) with
        ⟨name, semicolon, rfl, rfl, kind, closing⟩ |
        ⟨name, equals, initializer, semicolon, more, rfl, rfl, kind, assigns, stands, closing⟩
      · refine ⟨⟨rfl, kind⟩, Nat.zero_le _, ?_, by simp [Stmt.openEnded]⟩
        simp only [Stmt.yield, reads_cons, reads_nil]
        exact ⟨var, _, rfl, begins, name, _, rfl, rfl, semicolon, rest, rfl, closing, rfl⟩
      · refine ⟨⟨rfl, kind, stands.canonical⟩, stands.shallow, ?_, by simp [Stmt.openEnded]⟩
        simp only [Stmt.yield, reads_cons, reads_append, reads_nil]
        exact ⟨var, _, rfl, begins, name, _, rfl, rfl, equals, more, rfl, assigns, _, stands.reading,
          semicolon, rest, rfl, closing, rfl⟩
  · obtain ⟨canonical, shallow, reading, settled⟩ :=
      (stmt_parses _ _ _).mp ((accepts_attempt_plain begins).mp accepted)
    refine ⟨?_, shallow, reading, settled⟩
    cases s with
    | declare | define => simp [Stmt.Canonical] at canonical
    | _ => exact canonical

omit ended in
/-- Completeness: the token that the yield begins with selects the same alternative as the tree. -/
theorem attempt_accepts (stmt_parses : ParsesStmt stmt stop false room)
    (fits : StmtFits true room s tokens rest) : (attempt expr stmt).Accepts stop tokens s rest := by
  obtain ⟨canonical, shallow, reading, settled⟩ := fits
  have plain (canonical : s.Canonical false) : (attempt expr stmt).Accepts stop tokens s rest := by
    have fits : StmtFits false room s tokens rest := ⟨canonical, shallow, reading, settled⟩
    obtain ⟨t, more, rfl, _, noVar⟩ := fits.start
    have begins : ((t :: more).headD stop).kind ≠ .varWord := noVar rfl
    exact (accepts_attempt_plain begins).mpr ((stmt_parses _ _ _).mpr fits)
  cases s with
  | declare name =>
    simp only [Stmt.yield, reads_cons, reads_nil] at reading
    obtain ⟨var, _, rfl, begins, _, _, rfl, rfl, semicolon, _, rfl, closing, rfl⟩ := reading
    exact (accepts_attempt_var begins).mpr ((accepts_variableDeclaration expr_parses).mpr
      (.inl ⟨name, semicolon, rfl, rfl, canonical.2, closing⟩))
  | define name initializer =>
    simp only [Stmt.yield, reads_cons, reads_append, reads_nil] at reading
    obtain ⟨var, _, rfl, begins, _, _, rfl, rfl, equals, more, rfl, assigns, _, reading,
      semicolon, _, rfl, closing, rfl⟩ := reading
    exact (accepts_attempt_var begins).mpr ((accepts_variableDeclaration expr_parses).mpr
      (.inr ⟨name, equals, initializer, semicolon, more, rfl, rfl, canonical.2.1, assigns,
        ⟨canonical.2.2, Nat.zero_le _, shallow, reading⟩, closing⟩))
  | _ => exact plain canonical

omit ended expr_parses in
/-- A declaration without complaint is its attempt. -/
theorem accepts_declaration (expr_orderly : Orderly expr) (stmt_orderly : Orderly stmt) :
    (declaration expr stmt).Accepts stop tokens s rest ↔
      (attempt expr stmt).Accepts stop tokens s rest := by
  have neither (attempted : (attempt expr stmt stop tokens).errors ≠ [])
      (same : (declaration expr stmt stop tokens).errors = (attempt expr stmt stop tokens).errors) :
      (declaration expr stmt).Accepts stop tokens s rest ↔
        (attempt expr stmt).Accepts stop tokens s rest :=
    iff_of_false (not_accepts_of_errors (by rwa [same])) (not_accepts_of_errors attempted)
  obtain ⟨a, _, same⟩ | ⟨a, e, es, _, complaints, same⟩ | ⟨e, failed, same⟩ :=
    declaration_cases expr stmt stop tokens
  · rw [Accepts, same, Accepts]
  · exact neither (by simp [complaints]) (by rw [same])
  · have last := (orderly_attempt expr_orderly stmt_orderly).blames stop tokens e failed
    refine neither ?_ (by rw [same])
    intro none
    simp [none] at last

theorem parses_declaration (expr_orderly : Orderly expr) (stmt_orderly : Orderly stmt)
    (stmt_parses : ParsesStmt stmt stop false room) :
    ParsesStmt (declaration expr stmt) stop true room := by
  intro tokens s rest
  rw [accepts_declaration expr_orderly stmt_orderly]
  exact ⟨attempt_fits ended expr_parses stmt_parses, attempt_accepts expr_parses stmt_parses⟩

section Lists

variable (expr_orderly : Orderly expr) (stmt_orderly : Orderly stmt)
  (stmt_consumes : Consumes stop stmt) (stmt_parses : ParsesStmt stmt stop false room)

omit ended expr_parses

theorem accepts_nextDeclaration_none :
    (nextDeclaration close expr stmt).Accepts stop tokens none rest ↔
      tokens = rest ∧ ((tokens.headD stop).kind = close ∨ (tokens.headD stop).kind = .eof) := by
  unfold nextDeclaration
  simp only [accepts_bind, accepts_peek]
  constructor
  · rintro ⟨_, _, ⟨rfl, rfl⟩, after⟩
    split at after
    · rename_i ends
      exact ⟨(accepts_pure.mp after).2, ends⟩
    · simp at after
  · rintro ⟨rfl, ends⟩
    refine ⟨_, _, ⟨rfl, rfl⟩, ?_⟩
    rw [if_pos ends]
    simp

theorem accepts_nextDeclaration_some :
    (nextDeclaration close expr stmt).Accepts stop tokens (some s) rest ↔
      (declaration expr stmt).Accepts stop tokens s rest ∧
        ¬ ((tokens.headD stop).kind = close ∨ (tokens.headD stop).kind = .eof) := by
  unfold nextDeclaration
  simp only [accepts_bind, accepts_peek]
  constructor
  · rintro ⟨_, _, ⟨rfl, rfl⟩, after⟩
    split at after
    · simp at after
    · rename_i goes
      simp only [accepts_bind, accepts_pure, Option.some.injEq] at after
      obtain ⟨_, _, accepted, rfl, rfl⟩ := after
      exact ⟨accepted, goes⟩
  · rintro ⟨accepted, goes⟩
    refine ⟨_, _, ⟨rfl, rfl⟩, ?_⟩
    rw [if_neg goes]
    simpa using accepted

include ended expr_parses expr_orderly stmt_orderly stmt_consumes stmt_parses

/-- Statements are accepted one after the other, up to a token that ends the list. -/
theorem accepts_declarations (begins : close.startsDeclaration = false) (notElse : close ≠ .elseWord) :
    (repeated fun _ => nextDeclaration close expr stmt).Accepts stop tokens body rest ↔
      Stmt.CanonicalAll body ∧ Stmt.nestingAll body ≤ room ∧ Reads (Stmt.yieldAll body) tokens rest ∧
        ((rest.headD stop).kind = close ∨ (rest.headD stop).kind = .eof) := by
  have steady := steady_nextDeclaration ended close expr_orderly stmt_orderly stmt_consumes
  have parses := parses_declaration ended expr_parses expr_orderly stmt_orderly stmt_parses
  induction body generalizing tokens with
  | nil =>
    rw [accepts_repeated_nil steady, accepts_nextDeclaration_none]
    simp only [Stmt.CanonicalAll, Stmt.nestingAll, Stmt.yieldAll, reads_nil, Nat.zero_le, true_and]
    constructor
    · rintro ⟨rfl, ends⟩
      exact ⟨rfl, ends⟩
    · rintro ⟨rfl, ends⟩
      exact ⟨rfl, ends⟩
  | cons s body ih =>
    rw [accepts_repeated_cons steady]
    simp only [accepts_nextDeclaration_some, ih, Stmt.CanonicalAll, Stmt.nestingAll, Stmt.yieldAll,
      reads_append]
    constructor
    · rintro ⟨mid, ⟨accepted, _⟩, canonical, nested, reading, ends⟩
      have fits := (parses _ _ _).mp accepted
      exact ⟨⟨fits.canonical, canonical⟩, Nat.max_le.mpr ⟨fits.shallow, nested⟩,
        ⟨mid, fits.reading, reading⟩, ends⟩
    · rintro ⟨⟨first, others⟩, nested, ⟨mid, reading, later⟩, ends⟩
      obtain ⟨shallow, nested⟩ := Nat.max_le.mp nested
      have last : Avoids [.elseWord] rest := by
        cases rest with
        | nil => exact avoids_nil
        | cons t rest =>
          rw [avoids_cons]
          rcases ends with kind | kind
          · simpa [show t.kind = close from kind] using notElse
          · simp [show t.kind = .eof from kind]
      have settled := avoids_else others later last
      have fits : StmtFits true room s tokens mid := ⟨first, shallow, reading, fun _ => settled⟩
      refine ⟨mid, ⟨(parses _ _ _).mpr fits, ?_⟩, others, nested, later, ends⟩
      obtain ⟨t, more, rfl, starts, _⟩ := fits.start
      rintro (kind | kind)
      · rw [show t.kind = close from kind, begins] at starts
        contradiction
      · simp [show t.kind = .eof from kind, TokenKind.startsDeclaration,
          TokenKind.startsExpression] at starts

/-- A block ends at a brace, which no declaration begins with, so its body is the longest row of declarations.
-/
theorem accepts_block (closing : brace.kind = .rightBrace) :
    (repeated fun _ => nextDeclaration .rightBrace expr stmt).Accepts stop tokens body
        (brace :: rest) ↔
      Stmt.CanonicalAll body ∧ Stmt.nestingAll body ≤ room ∧
        Reads (Stmt.yieldAll body) tokens (brace :: rest) := by
  rw [accepts_declarations ended expr_parses expr_orderly stmt_orderly stmt_consumes stmt_parses rfl
    (by decide)]
  simp [closing]

/-- Soundness, by the word that the statement begins with. -/
theorem statementWith_fits (accepted : (statementWith expr stmt).Accepts stop tokens s rest) :
    StmtFits false (room + 1) s tokens rest := by
  unfold statementWith at accepted
  simp only [accepts_bind, accepts_peek] at accepted
  obtain ⟨_, _, ⟨rfl, rfl⟩, after⟩ := accepted
  have plain (expression : (do
      let value ← expr
      let _ ← expect .semicolonAfterExpression
      return Stmt.expression value).Accepts stop tokens s rest) :
      StmtFits false (room + 1) s tokens rest := by
    simp only [accepts_bind, accepts_expect, accepts_pure] at expression
    obtain ⟨e, _, accepted, semicolon, _, ⟨rfl, closing⟩, rfl, rfl⟩ := expression
    exact fits_expression.mpr ⟨semicolon, closing, ((expr_parses _ _ _).mp accepted).toStands⟩
  cases tokens with
  | nil =>
    simp only [List.headD_nil, ended] at after
    exact plain after
  | cons t tokens =>
    simp only [List.headD_cons] at after
    split at after
    case h_5 => exact plain after
    all_goals
      rename_i begins
      simp only [accepts_bind, accepts_advance, accepts_expect] at after
      obtain ⟨_, _, rfl, after⟩ := after
    · obtain ⟨paren, _, ⟨rfl, opening⟩, condition, _, accepted, close, _, ⟨rfl, closing⟩, thenBranch,
        mid, branch_accepted, _ | other, next, turns, after⟩ := after
      · obtain ⟨rfl, avoids⟩ := accepts_accept?_none.mp turns
        obtain ⟨rfl, rfl⟩ := accepts_pure.mp after
        exact fits_ifThen.mpr ⟨t, paren, _, close, _, rfl, begins, opening, closing,
          ((expr_parses _ _ _).mp accepted).toStands, (stmt_parses _ _ _).mp branch_accepted, avoids⟩
      · obtain ⟨rfl, member⟩ := accepts_accept?_some.mp turns
        simp only [accepts_bind, accepts_pure] at after
        obtain ⟨elseBranch, _, other_accepted, rfl, rfl⟩ := after
        exact fits_ifElse.mpr ⟨t, paren, _, close, _, other, next, rfl, begins, opening, closing,
          by simpa using member, ((expr_parses _ _ _).mp accepted).toStands,
          (stmt_parses _ _ _).mp branch_accepted, (stmt_parses _ _ _).mp other_accepted⟩
    · obtain ⟨paren, _, ⟨rfl, opening⟩, condition, _, accepted, close, _, ⟨rfl, closing⟩, body, _,
        body_accepted, after⟩ := after
      obtain ⟨rfl, rfl⟩ := accepts_pure.mp after
      exact fits_loop.mpr ⟨t, paren, _, close, _, rfl, begins, opening, closing,
        ((expr_parses _ _ _).mp accepted).toStands, (stmt_parses _ _ _).mp body_accepted⟩
    · obtain ⟨e, _, accepted, semicolon, _, ⟨rfl, closing⟩, after⟩ := after
      obtain ⟨rfl, rfl⟩ := accepts_pure.mp after
      exact fits_print.mpr ⟨t, _, semicolon, rfl, begins, closing,
        ((expr_parses _ _ _).mp accepted).toStands⟩
    · obtain ⟨body, _, accepted, close, _, ⟨rfl, closing⟩, after⟩ := after
      obtain ⟨rfl, rfl⟩ := accepts_pure.mp after
      exact fits_block.mpr ⟨_, close, rfl, begins, closing, (accepts_block ended expr_parses expr_orderly
        stmt_orderly stmt_consumes stmt_parses closing).mp accepted⟩

/-- Completeness, one case for each shape of statement that is no declaration. -/
theorem statementWith_accepts (fits : StmtFits false (room + 1) s tokens rest) :
    (statementWith expr stmt).Accepts stop tokens s rest := by
  unfold statementWith
  simp only [accepts_bind, accepts_peek]
  refine ⟨_, _, ⟨rfl, rfl⟩, ?_⟩
  cases s with
  | expression e =>
    obtain ⟨semicolon, closing, stands⟩ := fits_expression.mp fits
    have whole : Fits 0 room e tokens (semicolon :: rest) :=
      ⟨stands, closed_cons (.inr (.inr closing))⟩
    obtain ⟨t, more, rfl, starts⟩ := whole.start
    have accepted := (expr_parses _ _ _).mpr whole
    simp only [List.headD_cons]
    split
    case h_5 =>
      simp only [accepts_bind, accepts_expect, accepts_pure]
      exact ⟨e, _, accepted, semicolon, rest, ⟨rfl, closing⟩, rfl, rfl⟩
    all_goals
      rename_i kind
      simp [kind, TokenKind.startsExpression] at starts
  | print e =>
    obtain ⟨word, more, semicolon, rfl, begins, closing, stands⟩ := fits_print.mp fits
    have accepted := (expr_parses _ _ _).mpr ⟨stands, closed_cons (.inr (.inr closing))⟩
    simp only [List.headD_cons, begins, accepts_bind, accepts_advance, accepts_expect, accepts_pure]
    exact ⟨(), more, rfl, e, _, accepted, semicolon, rest, ⟨rfl, closing⟩, rfl, rfl⟩
  | block brace body =>
    obtain ⟨more, close, rfl, begins, closing, body_fits⟩ := fits_block.mp fits
    have accepted := (accepts_block ended expr_parses expr_orderly stmt_orderly stmt_consumes
      stmt_parses closing).mpr body_fits
    simp only [List.headD_cons, begins, accepts_bind, accepts_advance, accepts_expect, accepts_pure]
    exact ⟨(), more, rfl, body, _, accepted, close, rest, ⟨rfl, closing⟩, rfl, rfl⟩
  | ifThen condition thenBranch =>
    obtain ⟨word, paren, more, close, mid, rfl, begins, opening, closing, stands, branch, avoids⟩ :=
      fits_ifThen.mp fits
    have accepted := (expr_parses _ _ _).mpr ⟨stands, closed_cons (.inl closing)⟩
    simp only [List.headD_cons, begins, accepts_bind, accepts_advance, accepts_expect]
    exact ⟨(), _, rfl, paren, more, ⟨rfl, opening⟩, condition, _, accepted, close, mid, ⟨rfl, closing⟩,
      thenBranch, rest, (stmt_parses _ _ _).mpr branch, none, rest,
      accepts_accept?_none.mpr ⟨rfl, avoids⟩, accepts_pure.mpr ⟨rfl, rfl⟩⟩
  | ifElse condition thenBranch elseBranch =>
    obtain ⟨word, paren, more, close, mid, other, next, rfl, begins, opening, closing, turns, stands,
      branch, other_branch⟩ := fits_ifElse.mp fits
    have accepted := (expr_parses _ _ _).mpr ⟨stands, closed_cons (.inl closing)⟩
    simp only [List.headD_cons, begins, accepts_bind, accepts_advance, accepts_expect]
    refine ⟨(), _, rfl, paren, more, ⟨rfl, opening⟩, condition, _, accepted, close, mid, ⟨rfl, closing⟩,
      thenBranch, _, (stmt_parses _ _ _).mpr branch, some other, next,
      accepts_accept?_some.mpr ⟨rfl, by simp [turns]⟩, ?_⟩
    exact accepts_bind.mpr ⟨elseBranch, rest, (stmt_parses _ _ _).mpr other_branch,
      accepts_pure.mpr ⟨rfl, rfl⟩⟩
  | loop condition body =>
    obtain ⟨word, paren, more, close, mid, rfl, begins, opening, closing, stands, body_fits⟩ :=
      fits_loop.mp fits
    have accepted := (expr_parses _ _ _).mpr ⟨stands, closed_cons (.inl closing)⟩
    simp only [List.headD_cons, begins, accepts_bind, accepts_advance, accepts_expect]
    exact ⟨(), _, rfl, paren, more, ⟨rfl, opening⟩, condition, _, accepted, close, mid, ⟨rfl, closing⟩,
      body, rest, (stmt_parses _ _ _).mpr body_fits, accepts_pure.mpr ⟨rfl, rfl⟩⟩
  | missing | bad => exact fits.canonical.elim
  | declare | define => simpa [Stmt.Canonical] using fits.canonical

theorem parses_statementWith : ParsesStmt (statementWith expr stmt) stop false (room + 1) := by
  intro tokens s rest
  constructor
  · exact statementWith_fits ended expr_parses expr_orderly stmt_orderly stmt_consumes stmt_parses
  · exact statementWith_accepts ended expr_parses expr_orderly stmt_orderly stmt_consumes stmt_parses

end Lists

omit expr_parses in
/-- The statement parser accepts exactly the canonical statements that nest no deeper than there is
room, up to an `else` that would belong to them. -/
theorem parses_statement (room : Nat) : ParsesStmt (statement room) stop false room := by
  induction room with
  | zero =>
    intro tokens s rest
    constructor
    · intro accepted
      exact absurd accepted not_accepts_tooDeep
    · rintro ⟨canonical, shallow, _⟩
      cases s with
      | missing | bad => exact canonical.elim
      | declare | define => simp [Stmt.Canonical] at canonical
      | _ => simp [Stmt.nesting] at shallow
  | succ room ih =>
    exact parses_statementWith ended (parses_expression ended room) (orderly_expression room)
      (orderly_statement room) (consumes_statement ended room) ih

end Ended
end Parser
end LoxLang
