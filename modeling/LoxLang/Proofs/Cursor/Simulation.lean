import LoxLang.Proofs.Cursor.Agreement

/-! The cursor parses what the parser parses, expression by expression and statement by statement. So
it never looks outside its tokens, every complaint that it unwinds with is caught, and its loops take
fewer rounds than there are tokens. -/
namespace LoxLang
namespace Walk
open Cursor (Faces)

variable {stop : Token} {c : Cursor} {tokens : List Token}

section Expressions

variable {rounds room : Nat} {inner operand value : Parser Expr} {w v : Walk Expr}

theorem follows_primary (inner_follows : Follows stop rounds room id w inner) :
    Follows stop rounds room id (primary w) (Parser.primary inner) := by
  apply follows_peek_bind
  intro t
  cases kind : t.kind
  case falseWord | trueWord | nilWord | number | string | identifier =>
    exact followsAt_advance_bind (by simp [kind]) (follows_pure rfl)
  case leftParen =>
    apply followsAt_advance_bind (by simp [kind])
    exact inner_follows.bind fun e => (follows_expect _).bind fun _ => follows_pure rfl
  all_goals exact (follows_fail _).next t

theorem follows_nextArgument (inner_follows : Follows stop rounds room id w inner)
    (args : List Expr) (counted : args.length = count + 1) :
    Follows stop rounds room (Option.map fun e => args ++ [e]) (nextArgument w args)
      (Parser.nextArgument inner count) := by
  apply (follows_accept? (by decide)).bind
  rintro (_ | comma)
  · exact follows_pure rfl
  · have last : Follows stop rounds room (Option.map fun e => args ++ [e])
        (do return some (args ++ [← w])) (do return some (← inner)) :=
      inner_follows.bind fun e => follows_pure rfl
    simp only [id, counted]
    split
    · exact follows_peek_bind fun t => ((follows_report _).bind fun _ => last).next t
    · exact last

/-- Adding items at the end one by one adds their row. -/
theorem foldl_snoc (items row : List α) :
    items.foldl (fun row item => row ++ [item]) row = row ++ items := by
  rw [List.foldl_append_eq_append, ← List.flatMap_def, List.flatMap_singleton']

/-- The cursor counts the arguments that it has collected; the parser carries the count. -/
theorem follows_arguments (inner_orderly : Parser.Orderly inner)
    (inner_follows : Follows stop rounds room id w inner) :
    Follows stop rounds room id (arguments rounds w) (Parser.arguments inner) := by
  apply (follows_check _).bind
  intro closing
  dsimp only [id]
  split
  · exact follows_pure rfl
  · apply inner_follows.bind
    intro first
    apply Follows.into
    have row : List.foldl (fun args e => args ++ [e]) [first] = fun args => first :: args :=
      funext fun args => foldl_snoc args [first]
    rw [← show _ = fun args => id (first :: args) from row]
    -- The row so far has the first argument and one for each item.
    apply follows_iterate (fun count args => args.length = count + 1)
    · exact Parser.steady_nextArgument inner_orderly
    · exact fun count args counted => follows_nextArgument inner_follows args counted
    · intro count args e counted
      rw [List.length_append, counted, List.length_singleton]
    · rfl

theorem follows_nextCall (inner_orderly : Parser.Orderly inner)
    (inner_follows : Follows stop rounds room id w inner) (callee : Expr) :
    Follows stop rounds room (Option.map fun suffix => .call callee suffix.1 suffix.2)
      (nextCall rounds w callee) (Parser.callSuffix inner) := by
  apply (follows_accept? (by decide)).bind
  rintro (_ | paren)
  · exact follows_pure rfl
  · apply (follows_arguments inner_orderly inner_follows).bind
    intro args
    exact (follows_expect _).bind fun paren => follows_pure rfl

theorem follows_call (inner_orderly : Parser.Orderly inner)
    (inner_follows : Follows stop rounds room id w inner) :
    Follows stop rounds room id (call rounds w) (Parser.call inner) := by
  apply (follows_primary inner_follows).bind
  intro first
  apply Follows.into
  exact follows_iterate_const (Parser.steady_callSuffix inner_orderly)
    (follows_nextCall inner_orderly inner_follows) first

theorem follows_nextOperation {kinds : List TokenKind} (proper : .eof ∉ kinds)
    (operand_follows : Follows stop rounds room id w operand) (left : Expr) :
    Follows stop rounds room (Option.map fun more => .binary left more.1 more.2)
      (nextOperation w kinds left) (Parser.operation operand kinds) := by
  apply (follows_accept? proper).bind
  rintro (_ | operator)
  · exact follows_pure rfl
  · exact operand_follows.bind fun right => follows_pure rfl

theorem follows_binary {kinds : List TokenKind} (proper : .eof ∉ kinds)
    (operand_orderly : Parser.Orderly operand)
    (operand_follows : Follows stop rounds room id w operand) :
    Follows stop rounds room id (binary rounds w kinds) (Parser.chain operand kinds) := by
  apply operand_follows.bind
  intro first
  apply Follows.into
  exact follows_iterate_const (Parser.steady_operation operand_orderly kinds)
    (follows_nextOperation proper operand_follows) first

theorem follows_equality (operand_orderly : Parser.Orderly operand)
    (operand_follows : Follows stop rounds room id w operand) :
    Follows stop rounds room id (equality rounds w) (Parser.equality operand) := by
  have factor_orderly : Parser.Orderly (Parser.factor operand) :=
    Parser.orderly_chain operand_orderly _
  have term_orderly : Parser.Orderly (Parser.term operand) := Parser.orderly_chain factor_orderly _
  have comparison_orderly : Parser.Orderly (Parser.comparison operand) :=
    Parser.orderly_chain term_orderly _
  apply follows_binary (by decide) comparison_orderly
  apply follows_binary (by decide) term_orderly
  apply follows_binary (by decide) factor_orderly
  exact follows_binary (by decide) operand_orderly operand_follows

theorem follows_assignment (operand_orderly : Parser.Orderly operand)
    (operand_follows : Follows stop rounds room id w operand)
    (value_follows : Follows stop rounds room id v value) :
    Follows stop rounds room id (assignment rounds w v) (Parser.assignment operand value) := by
  apply (follows_equality operand_orderly operand_follows).bind
  intro target
  apply (follows_accept? (by decide)).bind
  rintro (_ | equals)
  · exact follows_pure rfl
  · apply value_follows.bind
    intro assigned
    cases target with
    | var name => exact follows_pure rfl
    | _ => exact (follows_report _).bind fun _ => follows_pure rfl

/-- How many calls suffice at a level with so much room. -/
def callsFor : Parser.Level → (room : Nat) → Nat
  | .assignment, room => 2 * room + 1
  | .unary, room => 2 * room + 2

/-- By induction on the fuel. A level of nesting takes two calls at most, one of each kind, which is what
`callsFor` counts. -/
theorem follows_nested (level : Parser.Level) (room fuel : Nat) (enough : callsFor level room ≤ fuel) :
    Follows stop rounds room id (nested rounds fuel level) (Parser.nested level room) := by
  induction fuel generalizing level room with
  | zero => cases level <;> simp [callsFor] at enough
  | succ fuel ih =>
    cases level with
    | assignment =>
      rw [nested]
      cases room with
      | zero => exact follows_nest_full fun _ => rfl
      | succ room =>
        simp only [callsFor] at enough
        exact (follows_assignment (Parser.orderly_nested .unary room)
          (ih .unary room (by simp only [callsFor]; omega))
          (ih .assignment room (by simp only [callsFor]; omega))).nest
    | unary =>
      simp only [callsFor] at enough
      have inner_follows := ih .assignment room (by simp only [callsFor]; omega)
      have calls := follows_call (Parser.orderly_nested .assignment room) inner_follows
      rw [nested]
      cases room with
      | zero =>
        apply (follows_accept? (by decide)).bind
        rintro (_ | operator)
        · exact calls
        · exact follows_nest_full fun _ => rfl
      | succ room =>
        apply (follows_accept? (by decide)).bind
        rintro (_ | operator)
        · exact calls
        · apply Follows.nest
          exact (ih .unary room (by simp only [callsFor]; omega)).bind fun right => follows_pure rfl

end Expressions

section Recovery

variable {rounds room : Nat} {last t : Token}

theorem previous_eq (place : c.current = index + 1) (behind : c.tokens[index]? = some last) :
    previous c = .done last c := by
  simp only [previous, place, tokenAt, behind]

theorem skip_end (faces : Faces stop rounds room [] c) : skip () c = .done none c := by
  rw [skip, bind_done (peek_eq faces), List.headD_nil, if_pos faces.ended]
  rfl

/-- One step of the recovery looks at the token before as well, to stop after a semicolon. -/
theorem skip_token (faces : Faces stop rounds room (t :: tokens) c)
    (before : previous c = .done last c) :
    skip () c = if last.kind = .semicolon ∨ Parser.startsStatement t.kind then .done none c
      else .done (some ()) (c.after [t] []) := by
  have going : t.kind ≠ .eof := faces.bare t (by simp)
  have seen := peek_eq faces
  rw [skip, bind_done seen, List.headD_cons, if_neg going, bind_done before]
  by_cases semicolon : last.kind = .semicolon
  · rw [if_pos semicolon, if_pos (.inl semicolon)]
    rfl
  · rw [if_neg semicolon, bind_done seen, List.headD_cons]
    by_cases starts : Parser.startsStatement t.kind = true
    · rw [if_pos starts, if_pos (.inr starts)]
      rfl
    · rw [if_neg starts, if_neg (by simp [semicolon, starts]), bind_done (advance_eq faces)]
      rfl

/-- With a token behind the cursor, tokens are dropped up to the boundary. -/
theorem iterate_skip (budget : Nat) (faces : Faces stop rounds room tokens c)
    (place : c.current = index + 1) (behind : c.tokens[index]? = some last)
    (enough : tokens.length < budget) :
    ∃ used, tokens = used ++ Parser.boundary last tokens ∧
      iterate skip budget () c = .done () (c.after used []) := by
  induction budget generalizing index last tokens c with
  | zero => contradiction
  | succ budget ih =>
    have stays (skipped : skip () c = .done none c) :
        iterate skip (budget + 1) () c = .done () (c.after [] []) := by
      rw [iterate, bind_done skipped, Cursor.after_nil]
      rfl
    cases tokens with
    | nil => exact ⟨[], rfl, stays (skip_end faces)⟩
    | cons t tokens =>
      have skipped := skip_token faces (previous_eq place behind)
      rw [Parser.boundary]
      by_cases here : last.kind = .semicolon ∨ Parser.startsStatement t.kind = true
      · rw [if_pos here] at skipped ⊢
        exact ⟨[], rfl, stays skipped⟩
      · rw [if_neg here] at skipped ⊢
        have fewer : tokens.length < budget := by simpa using enough
        have split : t :: tokens = [t] ++ tokens := rfl
        obtain ⟨used, parted, run⟩ := ih (faces.after split []) rfl faces.token fewer
        refine ⟨[t] ++ used, congrArg (t :: ·) parted, ?_⟩
        rw [iterate, bind_done skipped]
        change iterate skip budget () (c.after [t] []) = _
        rw [run, Cursor.after_after]
        rfl

/-- Recovery does not look before the first token, unless there is nothing at all to parse. -/
theorem synchronize_eq (faces : Faces stop rounds room tokens c)
    (inside : tokens ≠ [] ∨ 0 < c.current) :
    ∃ used, tokens = used ++ Parser.synchronize tokens ∧
      synchronize rounds c = .done () (c.after used []) := by
  cases tokens with
  | cons t tokens =>
    have split : t :: tokens = [t] ++ tokens := rfl
    have later := faces.after split []
    obtain ⟨used, parted, run⟩ := iterate_skip rounds later rfl faces.token later.short
    refine ⟨[t] ++ used, congrArg (t :: ·) parted, ?_⟩
    rw [synchronize, bind_done (advance_eq faces), run, Cursor.after_after]
    rfl
  | nil =>
    obtain ⟨index, place⟩ := Nat.exists_eq_add_one.mpr (inside.resolve_left (by simp))
    obtain ⟨last, behind⟩ : ∃ last, c.tokens[index]? = some last := by
      have within := (List.getElem?_eq_some_iff.mp faces.token).1
      exact ⟨_, List.getElem?_eq_getElem (by omega)⟩
    have before : advance c = .done last c := by
      rw [advance, bind_done (peek_eq faces), List.headD_nil, if_neg (by simp [faces.ended])]
      exact previous_eq place behind
    obtain ⟨used, parted, run⟩ := iterate_skip rounds faces place behind faces.short
    refine ⟨used, parted, ?_⟩
    rw [synchronize, bind_done before, run]

end Recovery

section Statements

variable {rounds room : Nat} {expr : Parser Expr} {stmt : Parser Stmt} {w : Walk Expr} {v : Walk Stmt}

theorem follows_variableDeclaration (expr_follows : Follows stop rounds room id w expr) :
    Follows stop rounds room id (variableDeclaration w) (Parser.variableDeclaration expr) := by
  apply (follows_expect _).bind
  intro name
  apply (follows_accept? (by decide)).bind
  rintro (_ | equals)
  · exact (follows_expect _).bind fun _ => follows_pure rfl
  · apply expr_follows.bind
    intro initializer
    exact (follows_expect _).bind fun _ => follows_pure rfl

/-- An attempt begins by accepting `var`, unless it comes to something else. -/
theorem attempt_accept? (ended : stop.kind = .eof) :
    Parser.attempt expr stmt stop tokens =
      (Parser.accept? [.varWord] >>= fun
        | some _ => Parser.variableDeclaration expr
        | none => stmt) stop tokens := by
  unfold Parser.attempt
  by_cases present : (tokens.headD stop).kind = .varWord
  · cases tokens with
    | nil => exact absurd (present.symm.trans ended) (by decide)
    | cons t tokens =>
      have taken : (Parser.accept? [.varWord]).Accepts stop (t :: tokens) (some t) tokens :=
        Parser.accepts_accept?_some.mpr ⟨rfl, List.mem_singleton.mpr present⟩
      rw [if_pos present, taken.bind_eq]
      rfl
  · have absent : (Parser.accept? [.varWord]).Accepts stop tokens none tokens :=
      Parser.accepts_accept?_none.mpr ⟨rfl, Parser.avoids_of_headD (mt List.mem_singleton.mp present)⟩
    rw [if_neg present, absent.bind_eq]

theorem follows_attempt (expr_follows : Follows stop rounds room id w expr)
    (stmt_follows : Follows stop rounds room id v stmt) :
    Follows stop rounds room id (attempt w v) (Parser.attempt expr stmt) := by
  intro tokens c faces
  rw [attempt_accept? faces.ended]
  refine (follows_accept? (by decide)).bind ?_ tokens c faces
  rintro (_ | word)
  · exact stmt_follows
  · exact follows_variableDeclaration expr_follows

/-- What unwinds is caught by the declaration around it, which then is at its own depth again. -/
theorem followsAt_declaration (attempts : Follows stop rounds room id (attempt w v)
    (Parser.attempt expr stmt)) (moves : t.kind ≠ .eof) :
    FollowsAt t stop rounds room id (declaration rounds w v) (Parser.declaration expr stmt) := by
  intro tokens c faces next
  have nonempty : tokens ≠ [] := by
    rintro rfl
    subst next
    exact moves faces.ended
  have agrees := attempts tokens c faces
  rw [Parser.declaration_eq, declaration, bind_done (peek_eq faces)]
  unfold catching
  generalize Parser.attempt expr stmt stop tokens = reply at agrees
  generalize attempt w v c = ending at agrees
  cases agrees with
  | done s used errors rest split =>
    cases errors with
    | nil =>
      have clean : (c.after used []).errors[c.errors.length]? = none := by simp [Cursor.after]
      simp only [clean]
      exact .done s used [] rest split
    | cons e errors =>
      have marked : (c.after used (e :: errors)).errors[c.errors.length]? = some e := by
        simp [Cursor.after]
      simp only [marked]
      exact .done _ used (e :: errors) rest split
  | unwound e used errors rest depth split =>
    have caught := faces.after split errors
    have inside : rest ≠ [] ∨ 0 < (c.after used errors).current := by
      cases used with
      | nil =>
        left
        rintro rfl
        exact nonempty split
      | cons t used => exact .inr (Nat.lt_of_lt_of_le (Nat.succ_pos _) (Nat.le_add_left _ _))
    obtain ⟨dropped, parted, run⟩ := synchronize_eq caught inside
    have restored : ({ c.after used errors with depth := c.depth } : Cursor) = c.after used errors := rfl
    simp only [SyntaxError.phase_diagnostic, if_true, restored]
    rw [bind_done run, Cursor.after_after, List.append_nil]
    exact .done _ (used ++ dropped) errors _ (by rw [split, List.append_assoc, ← parted])

theorem follows_nextDeclaration (close : TokenKind) (attempts : Follows stop rounds room id
    (attempt w v) (Parser.attempt expr stmt)) (body : List Stmt) :
    Follows stop rounds room (Option.map fun s => body ++ [s]) (nextDeclaration rounds close w v body)
      (Parser.nextDeclaration close expr stmt) := by
  apply follows_peek_bind
  intro t
  split
  · exact (follows_pure rfl).next t
  · rename_i goes
    have moves : t.kind ≠ .eof := fun eof => goes (.inr eof)
    intro tokens c faces next
    apply (followsAt_declaration attempts moves tokens c faces next).bind
    intro s used errors rest _ _
    exact agrees_pure stop _ rest rfl

/-- The declarations up to `close`, in a block or a program. -/
theorem follows_declarations (close : TokenKind) (ended : stop.kind = .eof)
    (expr_orderly : Parser.Orderly expr) (stmt_orderly : Parser.Orderly stmt)
    (stmt_consumes : Parser.Consumes stop stmt)
    (attempts : Follows stop rounds room id (attempt w v) (Parser.attempt expr stmt)) :
    Follows stop rounds room id (iterate (nextDeclaration rounds close w v) rounds [])
      (Parser.repeated fun _ => Parser.nextDeclaration close expr stmt) := by
  have row : List.foldl (fun body s => body ++ [s]) [] = @id (List Stmt) :=
    funext fun body => foldl_snoc body []
  rw [← row]
  exact follows_iterate_const
    (Parser.steady_nextDeclaration ended close expr_orderly stmt_orderly stmt_consumes)
    (follows_nextDeclaration close attempts) []

theorem follows_statementWith (ended : stop.kind = .eof) (expr_orderly : Parser.Orderly expr)
    (stmt_orderly : Parser.Orderly stmt) (stmt_consumes : Parser.Consumes stop stmt)
    (expr_follows : Follows stop rounds room id w expr)
    (stmt_follows : Follows stop rounds room id v stmt) :
    Follows stop rounds room id (statementWith rounds w v) (Parser.statementWith expr stmt) := by
  apply follows_peek_bind
  intro t
  cases kind : t.kind
  case ifWord =>
    apply followsAt_advance_bind (by simp [kind])
    refine (follows_expect _).bind fun _ => expr_follows.bind fun condition => ?_
    refine (follows_expect _).bind fun _ => stmt_follows.bind fun thenBranch => ?_
    apply (follows_accept? (by decide)).bind
    rintro (_ | word)
    · exact follows_pure rfl
    · exact stmt_follows.bind fun elseBranch => follows_pure rfl
  case whileWord =>
    apply followsAt_advance_bind (by simp [kind])
    refine (follows_expect _).bind fun _ => expr_follows.bind fun condition => ?_
    exact (follows_expect _).bind fun _ => stmt_follows.bind fun body => follows_pure rfl
  case printWord =>
    apply followsAt_advance_bind (by simp [kind])
    exact expr_follows.bind fun value => (follows_expect _).bind fun _ => follows_pure rfl
  case leftBrace =>
    apply followsAt_advance_bind (by simp [kind])
    apply (follows_declarations .rightBrace ended expr_orderly stmt_orderly stmt_consumes
      (follows_attempt expr_follows stmt_follows)).bind
    intro body
    exact (follows_expect _).bind fun _ => follows_pure rfl
  all_goals
    apply Follows.next
    exact expr_follows.bind fun value => (follows_expect _).bind fun _ => follows_pure rfl

/-- Statements need no more fuel than expressions with the same room do. -/
theorem follows_statement (ended : stop.kind = .eof) (room fuel : Nat)
    (enough : callsFor .assignment room ≤ fuel) :
    Follows stop rounds room id (statement rounds fuel) (Parser.statement room) := by
  induction fuel generalizing room with
  | zero => simp [callsFor] at enough
  | succ fuel ih =>
    rw [statement]
    cases room with
    | zero => exact follows_nest_full fun _ => rfl
    | succ room =>
      have fewer : callsFor .assignment room ≤ fuel := by
        simp only [callsFor] at enough ⊢
        omega
      apply Follows.nest
      exact follows_statementWith ended (Parser.orderly_expression room)
        (Parser.orderly_statement room) (Parser.consumes_statement ended room)
        (follows_nested .assignment room fuel fewer) (ih room fewer)

theorem follows_topAttempt (ended : stop.kind = .eof) (room fuel : Nat)
    (enough : callsFor .assignment room ≤ fuel) :
    Follows stop fuel room id (topAttempt fuel)
      (Parser.attempt (Parser.expression room) (Parser.statement room)) :=
  follows_attempt (follows_nested .assignment room fuel enough)
    (follows_statement ended room fuel enough)

theorem follows_program (ended : stop.kind = .eof) (room fuel : Nat)
    (enough : callsFor .assignment room ≤ fuel) :
    Follows stop fuel room id (program fuel) (Parser.declarations room) :=
  follows_declarations .eof ended (Parser.orderly_expression room) (Parser.orderly_statement room)
    (Parser.consumes_statement ended room) (follows_topAttempt ended room fuel enough)

end Statements

end Walk
end LoxLang
