import LoxLang.Parser
import LoxLang.Proofs.Parser.Acceptance

/-! What a parser leaves is the end of what it was given, whether it complains or not, it gives up only
with a complaint, and a parser that gives a result has taken at least one token. So every loop of the
parser has rounds enough. -/
namespace LoxLang
namespace Parser

/-- The parser leaves an end of its tokens, and the complaint that it gives up with is its last one. -/
structure Orderly (p : Parser α) : Prop where
  leaves : ∀ stop tokens, (p stop tokens).rest <:+ tokens
  blames : ∀ stop tokens e, (p stop tokens).outcome = .error e →
    (p stop tokens).errors.getLast? = some e

theorem orderly_pure (a : α) : Orderly (pure a) where
  leaves _ tokens := List.suffix_refl tokens
  blames _ _ _ failed := by cases failed

/-- The first parser may complain and go on. If it gives up, the complaints of the second one are not there to
come after. -/
theorem Orderly.bind {p : Parser α} {f : α → Parser β} (first : Orderly p)
    (second : ∀ a, Orderly (f a)) : Orderly (p >>= f) := by
  constructor
  · intro stop tokens
    change (Parser.bind p f stop tokens).rest <:+ tokens
    have before := first.leaves stop tokens
    simp only [Parser.bind]
    cases (p stop tokens).outcome with
    | error e => exact before
    | ok a => exact ((second a).leaves stop _).trans before
  · intro stop tokens e
    change (Parser.bind p f stop tokens).outcome = .error e →
      (Parser.bind p f stop tokens).errors.getLast? = some e
    simp only [Parser.bind]
    cases done : (p stop tokens).outcome with
    | error e =>
      rintro ⟨⟩
      exact first.blames stop tokens e done
    | ok a =>
      intro failed
      rw [List.getLast?_append, (second a).blames stop _ e failed]
      rfl

theorem orderly_peek : Orderly peek where
  leaves _ tokens := List.suffix_refl tokens
  blames _ _ _ failed := by cases failed

theorem orderly_advance : Orderly advance where
  leaves _ tokens := List.tail_suffix tokens
  blames _ _ _ failed := by cases failed

theorem orderly_report (e : SyntaxError) : Orderly (report e) where
  leaves _ tokens := List.suffix_refl tokens
  blames _ _ _ failed := by cases failed

theorem orderly_fail (e : SyntaxError) : Orderly (fail e : Parser α) where
  leaves _ tokens := List.suffix_refl tokens
  blames _ _ _ failed := by cases failed; rfl

theorem orderly_tooDeep : Orderly (tooDeep : Parser α) := orderly_peek.bind fun _ => orderly_fail _

theorem orderly_check (kind : TokenKind) : Orderly (check kind) :=
  orderly_peek.bind fun _ => orderly_pure _

theorem orderly_accept? (kinds : List TokenKind) : Orderly (accept? kinds) := by
  constructor
  · intro stop tokens
    cases tokens with
    | nil => exact List.suffix_refl []
    | cons t tokens =>
      simp only [accept?]
      split
      · exact List.suffix_cons t tokens
      · exact List.suffix_refl _
  · intro stop tokens e failed
    cases tokens with
    | nil => cases failed
    | cons t tokens =>
      simp only [accept?] at failed
      split at failed <;> cases failed

theorem orderly_expect (expected : Expectation) : Orderly (expect expected) := by
  refine (orderly_accept? _).bind ?_
  rintro (_ | t)
  · exact orderly_peek.bind fun _ => orderly_fail _
  · exact orderly_pure t

theorem orderly_repeated {step : Nat → Parser (Option α)} (each : ∀ count, Orderly (step count)) :
    Orderly (repeated step) := by
  have bounded : ∀ rounds count, Orderly (upTo step count rounds) := by
    intro rounds
    induction rounds with
    | nil => exact fun _ => orderly_pure []
    | cons t rounds ih =>
      intro count
      refine (each count).bind ?_
      rintro (_ | item)
      · exact orderly_pure []
      · exact (ih (count + 1)).bind fun _ => orderly_pure _
  exact ⟨fun stop tokens => (bounded tokens 0).leaves stop tokens,
    fun stop tokens => (bounded tokens 0).blames stop tokens⟩

section Expressions

variable {inner operand value : Parser Expr}

theorem orderly_primary (inner_orderly : Orderly inner) : Orderly (primary inner) := by
  refine orderly_peek.bind fun token => ?_
  split
  case h_7 =>
    refine orderly_advance.bind fun _ => inner_orderly.bind fun e => ?_
    exact (orderly_expect _).bind fun _ => orderly_pure _
  case h_8 => exact orderly_fail _
  all_goals exact orderly_advance.bind fun _ => orderly_pure _

theorem orderly_nextArgument (inner_orderly : Orderly inner) (count : Nat) :
    Orderly (nextArgument inner count) := by
  refine (orderly_accept? _).bind ?_
  rintro (_ | comma)
  · exact orderly_pure none
  · have last : Orderly (do return some (← inner)) := inner_orderly.bind fun _ => orderly_pure _
    dsimp only
    split
    · exact orderly_peek.bind fun _ => (orderly_report _).bind fun _ => last
    · exact last

theorem orderly_arguments (inner_orderly : Orderly inner) : Orderly (arguments inner) := by
  refine (orderly_check _).bind fun closing => ?_
  split
  · exact orderly_pure []
  · refine inner_orderly.bind fun first => ?_
    exact (orderly_repeated (orderly_nextArgument inner_orderly)).bind fun _ => orderly_pure _

theorem orderly_callSuffix (inner_orderly : Orderly inner) : Orderly (callSuffix inner) := by
  refine (orderly_accept? _).bind ?_
  rintro (_ | paren)
  · exact orderly_pure none
  · refine (orderly_arguments inner_orderly).bind fun args => ?_
    exact (orderly_expect _).bind fun _ => orderly_pure _

theorem orderly_call (inner_orderly : Orderly inner) : Orderly (call inner) := by
  refine (orderly_primary inner_orderly).bind fun first => ?_
  exact (orderly_repeated fun _ => orderly_callSuffix inner_orderly).bind fun _ => orderly_pure _

theorem orderly_unary (inner_orderly : Orderly inner) (operand_orderly : Orderly operand) :
    Orderly (unary inner operand) := by
  refine (orderly_accept? _).bind ?_
  rintro (_ | operator)
  · exact orderly_call inner_orderly
  · exact operand_orderly.bind fun _ => orderly_pure _

theorem orderly_operation (operand_orderly : Orderly operand) (kinds : List TokenKind) :
    Orderly (operation operand kinds) := by
  refine (orderly_accept? _).bind ?_
  rintro (_ | operator)
  · exact orderly_pure none
  · exact operand_orderly.bind fun _ => orderly_pure _

theorem orderly_chain (operand_orderly : Orderly operand) (kinds : List TokenKind) :
    Orderly (chain operand kinds) := by
  refine operand_orderly.bind fun first => ?_
  exact (orderly_repeated fun _ => orderly_operation operand_orderly kinds).bind fun _ => orderly_pure _

theorem orderly_equality (operand_orderly : Orderly operand) : Orderly (equality operand) :=
  orderly_chain (orderly_chain (orderly_chain (orderly_chain operand_orderly _) _) _) _

theorem orderly_assignment (operand_orderly : Orderly operand) (value_orderly : Orderly value) :
    Orderly (assignment operand value) := by
  refine (orderly_equality operand_orderly).bind fun target => (orderly_accept? _).bind ?_
  rintro (_ | equals)
  · exact orderly_pure target
  · refine value_orderly.bind fun assigned => ?_
    split
    · exact orderly_pure _
    · exact (orderly_report _).bind fun _ => orderly_pure _

/-- Every level of the grammar, at any room: the guard for the nesting is orderly as well. -/
theorem orderly_nested (level : Level) (room : Nat) : Orderly (nested level room) := by
  induction room generalizing level with
  | zero =>
    cases level with
    | assignment => exact orderly_tooDeep
    | unary => exact orderly_unary orderly_tooDeep orderly_tooDeep
  | succ room ih =>
    have inner := orderly_assignment (ih .unary) (ih .assignment)
    cases level with
    | assignment => exact inner
    | unary => exact orderly_unary inner (ih .unary)

end Expressions

/-- The parser takes a token whenever it gives a result. -/
def Consumes (stop : Token) (p : Parser α) : Prop :=
  ∀ tokens a, (p stop tokens).outcome = .ok a → (p stop tokens).rest.length < tokens.length

/-- Both parts of a successful parser succeed, though complaints may have been made on the way. -/
theorem bind_ok {p : Parser α} {f : α → Parser β} (done : ((p >>= f) stop tokens).outcome = .ok b) :
    ∃ a, (p stop tokens).outcome = .ok a ∧ (f a stop (p stop tokens).rest).outcome = .ok b ∧
      ((p >>= f) stop tokens).rest = (f a stop (p stop tokens).rest).rest := by
  change (Parser.bind p f stop tokens).outcome = .ok b at done
  change ∃ a, _ ∧ _ ∧ (Parser.bind p f stop tokens).rest = _
  simp only [Parser.bind] at done ⊢
  cases first : (p stop tokens).outcome with
  | error e => simp only [first] at done; contradiction
  | ok a =>
    simp only [first] at done
    exact ⟨a, rfl, done, rfl⟩

/-- Every item of a repeated parser comes from a step at an end of the tokens, also when there were
complaints. -/
theorem repeated_items {step : Nat → Parser (Option α)} (each : ∀ count, Orderly (step count))
    (done : (repeated step stop tokens).outcome = .ok items) (member : item ∈ items) :
    ∃ count mid, mid <:+ tokens ∧ (step count stop mid).outcome = .ok (some item) := by
  have bounded : ∀ rounds count mid items, mid <:+ tokens →
      (upTo step count rounds stop mid).outcome = .ok items → item ∈ items →
      ∃ count mid, mid <:+ tokens ∧ (step count stop mid).outcome = .ok (some item) := by
    intro rounds
    induction rounds with
    | nil =>
      intro count mid items _ done member
      obtain rfl : [] = items := by simpa [upTo, pure, Parser.pure] using done
      contradiction
    | cons t rounds ih =>
      intro count mid items within done member
      rw [upTo_cons, round] at done
      obtain ⟨found, stepped, after, _⟩ := bind_ok done
      cases found with
      | none =>
        obtain rfl : [] = items := by simpa [pure, Parser.pure] using after
        contradiction
      | some first =>
        obtain ⟨others, later, built, _⟩ := bind_ok after
        obtain rfl : first :: others = items := by simpa [pure, Parser.pure] using built
        rcases List.mem_cons.mp member with rfl | member
        · exact ⟨count, mid, within, stepped⟩
        · exact ih _ _ _ (((each count).leaves stop mid).trans within) later member
  exact bounded tokens 0 tokens items (List.suffix_refl tokens) done member

theorem Consumes.bind {p : Parser α} {f : α → Parser β} (first : Consumes stop p)
    (second : ∀ a, Orderly (f a)) : Consumes stop (p >>= f) := by
  intro tokens b done
  obtain ⟨a, before, _, left⟩ := bind_ok done
  have fewer := first tokens a before
  have noMore := ((second a).leaves stop (p stop tokens).rest).length_le
  rw [left]
  omega

theorem Orderly.bind_consumes {p : Parser α} {f : α → Parser β} (first : Orderly p)
    (second : ∀ a, Consumes stop (f a)) : Consumes stop (p >>= f) := by
  intro tokens b done
  obtain ⟨a, _, after, left⟩ := bind_ok done
  have noMore := (first.leaves stop tokens).length_le
  have fewer := second a _ b after
  rw [left]
  omega

theorem consumes_fail (e : SyntaxError) : Consumes stop (fail e : Parser α) := by
  intro tokens a done
  simp [fail] at done

theorem consumes_tooDeep : Consumes stop (tooDeep : Parser α) :=
  orderly_peek.bind_consumes fun _ => consumes_fail _

/-- The end token is never taken, so an optional token that is there costs one of the list. -/
theorem accept?_costs (taken : (accept? kinds stop tokens).outcome = .ok (some t)) :
    (accept? kinds stop tokens).rest.length < tokens.length := by
  cases tokens with
  | nil => simp [accept?] at taken
  | cons first more =>
    by_cases member : first.kind ∈ kinds
    · simp [accept?, member]
    · simp [accept?, member] at taken

/-- A parser that begins by accepting a token consumes, if it does so where there is no such token. -/
theorem consumes_accept? {k : Option Token → Parser β} (absent : Consumes stop (k none))
    (present : ∀ t, Orderly (k (some t))) : Consumes stop (accept? kinds >>= k) := by
  intro tokens b done
  obtain ⟨found, first, after, left⟩ := bind_ok done
  rw [left]
  cases found with
  | none =>
    have noMore := ((orderly_accept? kinds).leaves stop tokens).length_le
    have fewer := absent _ b after
    omega
  | some t =>
    have fewer := accept?_costs first
    have noMore := ((present t).leaves stop (accept? kinds stop tokens).rest).length_le
    omega

/-- Looking at the next token and taking it consumes, unless it is the end token. -/
theorem consumes_peek_advance {f : Token → Parser α}
    (ended : Consumes stop (f stop))
    (each : ∀ t, Consumes stop (f t) ∨ ∃ next : Unit → Parser α, f t = (advance >>= next) ∧
      ∀ u, Orderly (next u)) : Consumes stop (peek >>= f) := by
  intro tokens b done
  obtain ⟨t, seen, after, left⟩ := bind_ok done
  rw [left]
  simp only [peek, Except.ok.injEq] at seen
  cases tokens with
  | nil =>
    subst seen
    exact ended [] b after
  | cons first more =>
    rcases each t with consumes | ⟨next, same, orderly⟩
    · exact consumes _ b after
    · rw [same] at after ⊢
      obtain ⟨u, _, _, left⟩ := bind_ok after
      rw [left]
      have noMore := ((orderly u).leaves stop more).length_le
      exact Nat.lt_succ_of_le noMore

/-- A step that begins by accepting a token can be repeated. -/
theorem steady_accept? {k : Nat → Option Token → Parser (Option α)}
    (absent : ∀ count, k count none = pure none)
    (present : ∀ count t, Orderly (k count (some t))) :
    Steady (fun count => accept? kinds >>= k count) stop where
  ends count := by
    rw [accepts_bind]
    exact ⟨none, [], by simp, by simp [absent]⟩
  costs count tokens done := by
    obtain ⟨found, first, after, left⟩ := bind_ok done
    rw [left]
    cases found with
    | none =>
      rw [absent] at after
      simp [pure, Parser.pure] at after
    | some t =>
      have fewer := accept?_costs first
      have noMore := ((present count t).leaves stop (accept? kinds stop tokens).rest).length_le
      omega

section Loops

variable {inner operand value : Parser Expr}

theorem steady_operation (operand_orderly : Orderly operand) (kinds : List TokenKind) :
    Steady (fun _ => operation operand kinds) stop :=
  steady_accept? (fun _ => rfl) fun _ _ => operand_orderly.bind fun _ => orderly_pure _

theorem steady_callSuffix (inner_orderly : Orderly inner) :
    Steady (fun _ => callSuffix inner) stop :=
  steady_accept? (fun _ => rfl) fun _ _ =>
    (orderly_arguments inner_orderly).bind fun _ => (orderly_expect _).bind fun _ => orderly_pure _

theorem steady_nextArgument (inner_orderly : Orderly inner) :
    Steady (nextArgument inner) stop := by
  refine steady_accept? (fun _ => rfl) fun count _ => ?_
  have last : Orderly (do return some (← inner)) := inner_orderly.bind fun _ => orderly_pure _
  dsimp only
  split
  · exact orderly_peek.bind fun _ => (orderly_report _).bind fun _ => last
  · exact last

section Ended

variable {stop : Token} (ended : stop.kind = .eof)
include ended

theorem consumes_primary (inner_orderly : Orderly inner) : Consumes stop (primary inner) := by
  apply consumes_peek_advance
  · simp only [ended]
    exact consumes_fail _
  · intro token
    split
    case h_7 =>
      refine .inr ⟨_, rfl, fun _ => inner_orderly.bind fun _ => ?_⟩
      exact (orderly_expect _).bind fun _ => orderly_pure _
    case h_8 => exact .inl (consumes_fail _)
    all_goals exact .inr ⟨_, rfl, fun _ => orderly_pure _⟩

theorem consumes_call (inner_orderly : Orderly inner) : Consumes stop (call inner) :=
  (consumes_primary ended inner_orderly).bind fun _ =>
    (orderly_repeated fun _ => orderly_callSuffix inner_orderly).bind fun _ => orderly_pure _

theorem consumes_unary (inner_orderly : Orderly inner) (operand_orderly : Orderly operand) :
    Consumes stop (unary inner operand) :=
  consumes_accept? (consumes_call ended inner_orderly) fun _ =>
    operand_orderly.bind fun _ => orderly_pure _

omit ended in
theorem consumes_chain (operand_orderly : Orderly operand) (consumes : Consumes stop operand)
    (kinds : List TokenKind) : Consumes stop (chain operand kinds) :=
  consumes.bind fun _ =>
    (orderly_repeated fun _ => orderly_operation operand_orderly kinds).bind fun _ => orderly_pure _

omit ended in
theorem consumes_assignment (operand_orderly : Orderly operand) (consumes : Consumes stop operand)
    (value_orderly : Orderly value) : Consumes stop (assignment operand value) := by
  have factor_orderly : Orderly (factor operand) := orderly_chain operand_orderly _
  have term_orderly : Orderly (term operand) := orderly_chain factor_orderly _
  have comparison_orderly : Orderly (comparison operand) := orderly_chain term_orderly _
  have target : Consumes stop (equality operand) :=
    consumes_chain comparison_orderly (consumes_chain term_orderly (consumes_chain factor_orderly
      (consumes_chain operand_orderly consumes _) _) _) _
  refine target.bind fun target => (orderly_accept? _).bind ?_
  rintro (_ | equals)
  · exact orderly_pure target
  · refine value_orderly.bind fun assigned => ?_
    split
    · exact orderly_pure _
    · exact (orderly_report _).bind fun _ => orderly_pure _

/-- An expression has a token at least. This is what bounds the loops over arguments and operators. -/
theorem consumes_nested (level : Level) (room : Nat) : Consumes stop (nested level room) := by
  induction room generalizing level with
  | zero =>
    cases level with
    | assignment => exact consumes_tooDeep
    | unary => exact consumes_unary ended orderly_tooDeep orderly_tooDeep
  | succ room ih =>
    have unary_orderly := orderly_nested .unary room
    have value_orderly := orderly_nested .assignment room
    cases level with
    | assignment => exact consumes_assignment unary_orderly (ih .unary) value_orderly
    | unary =>
      exact consumes_unary ended (orderly_assignment unary_orderly value_orderly) unary_orderly

end Ended
end Loops

section Statements

variable {expr : Parser Expr} {stmt : Parser Stmt}

theorem orderly_variableDeclaration (expr_orderly : Orderly expr) :
    Orderly (variableDeclaration expr) := by
  refine (orderly_expect _).bind fun name => (orderly_accept? _).bind ?_
  rintro (_ | equals)
  · exact (orderly_expect _).bind fun _ => orderly_pure _
  · exact expr_orderly.bind fun _ => (orderly_expect _).bind fun _ => orderly_pure _

/-- Skipping ahead after a complaint only drops tokens from the front. -/
theorem boundary_suffix (last : Token) (tokens : List Token) : boundary last tokens <:+ tokens := by
  induction tokens generalizing last with
  | nil => exact List.suffix_refl []
  | cons t tokens ih =>
    rw [boundary]
    split
    · exact List.suffix_refl _
    · exact (ih t).trans (List.suffix_cons t tokens)

theorem synchronize_suffix (tokens : List Token) : synchronize tokens <:+ tokens := by
  cases tokens with
  | nil => exact List.suffix_refl []
  | cons t tokens => exact (boundary_suffix t tokens).trans (List.suffix_cons t tokens)

/-- Recovery takes a token if there is one. -/
theorem synchronize_costs (nonempty : tokens ≠ []) :
    (synchronize tokens).length < tokens.length := by
  cases tokens with
  | nil => contradiction
  | cons t tokens => exact Nat.lt_succ_of_le (boundary_suffix t tokens).length_le

/-- The run behind a declaration, before anything is made of its complaints. -/
def attempt (expr : Parser Expr) (stmt : Parser Stmt) : Parser Stmt := fun stop tokens =>
  if (tokens.headD stop).kind = .varWord then variableDeclaration expr stop tokens.tail
  else stmt stop tokens

/-- What a declaration makes of the answer to its attempt. -/
def settle (start : Token) (reply : Reply Stmt) : Reply Stmt :=
  match reply.outcome, reply.errors with
  | .error e, _ =>
    { reply with outcome := .ok (.bad start e.diagnostic), rest := synchronize reply.rest }
  | .ok _, e :: _ => { reply with outcome := .ok (.bad start e.diagnostic) }
  | .ok _, [] => reply

theorem declaration_eq (expr : Parser Expr) (stmt : Parser Stmt) (stop : Token)
    (tokens : List Token) : declaration expr stmt stop tokens =
      settle (tokens.headD stop) (attempt expr stmt stop tokens) := rfl

/-- A declaration is its attempt, if that went without complaint, and otherwise a `bad` statement. -/
theorem declaration_cases (expr : Parser Expr) (stmt : Parser Stmt) (stop : Token)
    (tokens : List Token) :
    (∃ s, (attempt expr stmt).Accepts stop tokens s (attempt expr stmt stop tokens).rest ∧
      declaration expr stmt stop tokens = attempt expr stmt stop tokens) ∨
    (∃ a e es, (attempt expr stmt stop tokens).outcome = .ok a ∧
      (attempt expr stmt stop tokens).errors = e :: es ∧
      declaration expr stmt stop tokens = { attempt expr stmt stop tokens with
        outcome := .ok (.bad (tokens.headD stop) e.diagnostic) }) ∨
    (∃ e, (attempt expr stmt stop tokens).outcome = .error e ∧
      declaration expr stmt stop tokens = { attempt expr stmt stop tokens with
        outcome := .ok (.bad (tokens.headD stop) e.diagnostic)
        rest := synchronize (attempt expr stmt stop tokens).rest }) := by
  unfold Accepts
  rw [declaration_eq]
  generalize attempt expr stmt stop tokens = reply
  obtain ⟨outcome, errors, rest⟩ := reply
  cases outcome with
  | error e => exact .inr (.inr ⟨e, rfl, rfl⟩)
  | ok s =>
    cases errors with
    | nil => exact .inl ⟨s, rfl, rfl⟩
    | cons e es => exact .inr (.inl ⟨s, e, es, rfl, rfl, rfl⟩)

theorem declaration_errors (expr : Parser Expr) (stmt : Parser Stmt) (stop : Token) (tokens : List Token) :
    (declaration expr stmt stop tokens).errors = (attempt expr stmt stop tokens).errors := by
  rcases declaration_cases expr stmt stop tokens with ⟨_, _, same⟩ | ⟨_, _, _, _, _, same⟩ | ⟨_, _, same⟩
  · rw [same]
  · rw [same]
  · rw [same]

theorem orderly_attempt (expr_orderly : Orderly expr) (stmt_orderly : Orderly stmt) :
    Orderly (attempt expr stmt) := by
  constructor
  · intro stop tokens
    unfold attempt
    split
    · exact ((orderly_variableDeclaration expr_orderly).leaves stop _).trans (List.tail_suffix tokens)
    · exact stmt_orderly.leaves stop tokens
  · intro stop tokens e
    unfold attempt
    split
    · exact (orderly_variableDeclaration expr_orderly).blames stop tokens.tail e
    · exact stmt_orderly.blames stop tokens e

/-- Recovery drops tokens and does not complain, so the order of the complaints is kept. -/
theorem orderly_declaration (expr_orderly : Orderly expr) (stmt_orderly : Orderly stmt) :
    Orderly (declaration expr stmt) := by
  constructor
  · intro stop tokens
    have before := (orderly_attempt expr_orderly stmt_orderly).leaves stop tokens
    obtain ⟨_, _, same⟩ | ⟨_, _, _, _, _, same⟩ | ⟨_, _, same⟩ :=
      declaration_cases expr stmt stop tokens
    · rw [same]
      exact before
    · rw [same]
      exact before
    · rw [same]
      exact (synchronize_suffix _).trans before
  · intro stop tokens e failed
    obtain ⟨_, accepted, same⟩ | ⟨_, _, _, _, _, same⟩ | ⟨_, _, same⟩ :=
      declaration_cases expr stmt stop tokens
    · rw [same, accepted] at failed
      cases failed
    · rw [same] at failed
      cases failed
    · rw [same] at failed
      cases failed

theorem orderly_nextDeclaration (close : TokenKind) (expr_orderly : Orderly expr)
    (stmt_orderly : Orderly stmt) : Orderly (nextDeclaration close expr stmt) := by
  refine orderly_peek.bind fun token => ?_
  split
  · exact orderly_pure none
  · exact (orderly_declaration expr_orderly stmt_orderly).bind fun _ => orderly_pure _

theorem orderly_statementWith (expr_orderly : Orderly expr) (stmt_orderly : Orderly stmt) :
    Orderly (statementWith expr stmt) := by
  refine orderly_peek.bind fun token => ?_
  split
  · refine orderly_advance.bind fun _ => (orderly_expect _).bind fun _ => expr_orderly.bind fun _ => ?_
    refine (orderly_expect _).bind fun _ => stmt_orderly.bind fun _ => (orderly_accept? _).bind ?_
    rintro (_ | elseWord)
    · exact orderly_pure _
    · exact stmt_orderly.bind fun _ => orderly_pure _
  · refine orderly_advance.bind fun _ => (orderly_expect _).bind fun _ => expr_orderly.bind fun _ => ?_
    exact (orderly_expect _).bind fun _ => stmt_orderly.bind fun _ => orderly_pure _
  · refine orderly_advance.bind fun _ => expr_orderly.bind fun _ => ?_
    exact (orderly_expect _).bind fun _ => orderly_pure _
  · refine orderly_advance.bind fun _ => Orderly.bind ?_ fun _ => ?_
    · exact orderly_repeated fun _ => orderly_nextDeclaration _ expr_orderly stmt_orderly
    · exact (orderly_expect _).bind fun _ => orderly_pure _
  · exact expr_orderly.bind fun _ => (orderly_expect _).bind fun _ => orderly_pure _

theorem orderly_expression (room : Nat) : Orderly (expression room) := orderly_nested _ room

theorem orderly_statement (room : Nat) : Orderly (statement room) := by
  induction room with
  | zero => exact orderly_tooDeep
  | succ room ih => exact orderly_statementWith (orderly_expression room) ih

variable {stop : Token} (ended : stop.kind = .eof)
include ended

theorem consumes_statementWith (expr_orderly : Orderly expr) (stmt_orderly : Orderly stmt)
    (expr_consumes : Consumes stop expr) : Consumes stop (statementWith expr stmt) := by
  have plain : Consumes stop (do
      let value ← expr
      let _ ← expect .semicolonAfterExpression
      return Stmt.expression value) :=
    expr_consumes.bind fun _ => (orderly_expect _).bind fun _ => orderly_pure _
  apply consumes_peek_advance
  · simp only [ended]
    exact plain
  · intro token
    split
    · refine .inr ⟨_, rfl, fun _ => (orderly_expect _).bind fun _ => expr_orderly.bind fun _ => ?_⟩
      refine (orderly_expect _).bind fun _ => stmt_orderly.bind fun _ => (orderly_accept? _).bind ?_
      rintro (_ | elseWord)
      · exact orderly_pure _
      · exact stmt_orderly.bind fun _ => orderly_pure _
    · refine .inr ⟨_, rfl, fun _ => (orderly_expect _).bind fun _ => expr_orderly.bind fun _ => ?_⟩
      exact (orderly_expect _).bind fun _ => stmt_orderly.bind fun _ => orderly_pure _
    · refine .inr ⟨_, rfl, fun _ => expr_orderly.bind fun _ => ?_⟩
      exact (orderly_expect _).bind fun _ => orderly_pure _
    · refine .inr ⟨_, rfl, fun _ => Orderly.bind ?_ fun _ => ?_⟩
      · exact orderly_repeated fun _ => orderly_nextDeclaration _ expr_orderly stmt_orderly
      · exact (orderly_expect _).bind fun _ => orderly_pure _
    · exact .inl plain

theorem consumes_statement (room : Nat) : Consumes stop (statement room) := by
  cases room with
  | zero => exact consumes_tooDeep
  | succ room =>
    exact consumes_statementWith ended (orderly_expression room) (orderly_statement room)
      (consumes_nested ended _ room)

omit ended in
/-- A declaration takes a token if there is one, also when it cannot be parsed. -/
theorem declaration_costs (expr_orderly : Orderly expr) (stmt_orderly : Orderly stmt)
    (stmt_consumes : Consumes stop stmt) (nonempty : tokens ≠ []) :
    (declaration expr stmt stop tokens).rest.length < tokens.length := by
  have leaves := (orderly_attempt expr_orderly stmt_orderly).leaves stop tokens
  have consumes : ∀ a, (attempt expr stmt stop tokens).outcome = .ok a →
      (attempt expr stmt stop tokens).rest.length < tokens.length := by
    intro a done
    unfold attempt at done ⊢
    split at done
    · have noMore := ((orderly_variableDeclaration expr_orderly).leaves stop tokens.tail).length_le
      have fewer : tokens.tail.length < tokens.length := by
        have := List.length_pos_iff.mpr nonempty
        rw [List.length_tail]
        omega
      rw [if_pos ‹_›]
      omega
    · rw [if_neg ‹_›]
      exact stmt_consumes tokens a done
  obtain ⟨s, accepted, same⟩ | ⟨a, _, _, done, _, same⟩ | ⟨_, _, same⟩ :=
    declaration_cases expr stmt stop tokens
  · rw [same]
    exact consumes s (congrArg Reply.outcome accepted)
  · rw [same]
    exact consumes a done
  · rw [same]
    by_cases empty : (attempt expr stmt stop tokens).rest = []
    · simpa [empty, synchronize] using List.length_pos_iff.mpr nonempty
    · have fewer := synchronize_costs empty
      have noMore := leaves.length_le
      simp only
      omega

/-- Each round takes a token even where the declaration fails: recovery has dropped one at least. -/
theorem steady_nextDeclaration (close : TokenKind) (expr_orderly : Orderly expr)
    (stmt_orderly : Orderly stmt) (stmt_consumes : Consumes stop stmt) :
    Steady (fun _ => nextDeclaration close expr stmt) stop where
  ends count := by
    unfold nextDeclaration
    rw [accepts_bind]
    exact ⟨stop, [], by simp, by simp [ended]⟩
  costs count tokens done := by
    unfold nextDeclaration at done ⊢
    obtain ⟨token, seen, after, left⟩ := bind_ok done
    rw [left]
    simp only [peek, Except.ok.injEq] at seen
    subst seen
    split at after
    · simp [pure, Parser.pure] at after
    · rename_i goes
      have nonempty : tokens ≠ [] := by
        rintro rfl
        exact goes (.inr ended)
      rw [if_neg goes]
      obtain ⟨s, _, _, left⟩ := bind_ok after
      rw [left]
      exact declaration_costs expr_orderly stmt_orderly stmt_consumes nonempty

end Statements

end Parser
end LoxLang
