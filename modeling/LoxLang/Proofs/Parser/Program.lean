import LoxLang.Proofs.Parser.Statement

/-! Whole programs. Parsing undoes the row of tokens of every canonical program, and a program that is
parsed without complaint is canonical and stands for exactly the tokens that were parsed. -/
namespace LoxLang
namespace Parser

/-- The parser never gives up. -/
def Lasting (p : Parser α) : Prop :=
  ∀ stop tokens, ∃ a, (p stop tokens).outcome = .ok a

theorem lasting_pure (a : α) : Lasting (pure a) := fun _ _ => ⟨a, rfl⟩

theorem Lasting.bind {p : Parser α} {f : α → Parser β} (first : Lasting p)
    (second : ∀ a, Lasting (f a)) : Lasting (p >>= f) := by
  intro stop tokens
  obtain ⟨a, before⟩ := first stop tokens
  obtain ⟨b, after⟩ := second a stop (p stop tokens).rest
  refine ⟨b, ?_⟩
  change (Parser.bind p f stop tokens).outcome = .ok b
  simp only [Parser.bind, before]
  exact after

theorem lasting_repeated {step : Nat → Parser (Option α)} (each : ∀ count, Lasting (step count)) :
    Lasting (repeated step) := by
  have bounded : ∀ rounds count, Lasting (upTo step count rounds) := by
    intro rounds
    induction rounds with
    | nil => exact fun _ => lasting_pure []
    | cons t rounds ih =>
      intro count
      refine (each count).bind ?_
      rintro (_ | item)
      · exact lasting_pure []
      · exact (ih (count + 1)).bind fun _ => lasting_pure _
  exact fun stop tokens => bounded tokens 0 stop tokens

/-- Recovery turns every failure into a bad statement. -/
theorem lasting_declaration (expr : Parser Expr) (stmt : Parser Stmt) :
    Lasting (declaration expr stmt) := by
  intro stop tokens
  obtain ⟨s, accepted, same⟩ | ⟨_, _, _, _, _, same⟩ | ⟨_, _, same⟩ :=
    declaration_cases expr stmt stop tokens
  · exact ⟨s, by rw [same, accepted]⟩
  · exact ⟨_, by rw [same]⟩
  · exact ⟨_, by rw [same]⟩

theorem lasting_declarations (limit : Nat) : Lasting (declarations limit) := by
  apply lasting_repeated
  intro _
  refine Lasting.bind (fun _ tokens => ⟨_, rfl⟩) fun token => ?_
  split
  · exact lasting_pure none
  · exact (lasting_declaration _ _).bind fun _ => lasting_pure _

/-- The grammar of programs: what is accepted without complaint is exactly what the leaves of canonical
statements read as. -/
theorem accepts_program (ended : stop.kind = .eof) :
    (declarations limit).Accepts stop tokens program rest ↔
      Stmt.CanonicalAll program ∧ Stmt.nestingAll program ≤ limit ∧
        Reads (Stmt.yieldAll program) tokens rest ∧ (rest.headD stop).kind = .eof := by
  unfold declarations
  rw [accepts_declarations ended (parses_expression ended limit) (orderly_expression limit)
    (orderly_statement limit) (consumes_statement ended limit) (parses_statement ended limit) rfl
    (by decide), or_self]

/-- A declaration is `bad`, with the token that it began with, or stands for what it took. -/
theorem declaration_fits (ended : stop.kind = .eof) (tokens : List Token)
    (done : (declaration (expression limit) (statement limit) stop tokens).outcome = .ok s) :
    (∃ e, s = .bad (tokens.headD stop) e) ∨ StmtFits true limit s tokens
      (declaration (expression limit) (statement limit) stop tokens).rest := by
  obtain ⟨a, accepted, same⟩ | ⟨_, _, _, _, _, same⟩ | ⟨_, _, same⟩ :=
    declaration_cases (expression limit) (statement limit) stop tokens
  · rw [same] at done ⊢
    rw [accepted] at done
    obtain rfl := Except.ok.inj done
    exact .inr (attempt_fits ended (parses_expression ended limit) (parses_statement ended limit)
      accepted)
  · rw [same] at done
    exact .inl ⟨_, (Except.ok.inj done).symm⟩
  · rw [same] at done
    exact .inl ⟨_, (Except.ok.inj done).symm⟩

/-- Whatever the tokens are, each statement of the program was declared somewhere among them. -/
theorem declared_declarations (done : (declarations limit stop tokens).outcome = .ok program)
    (ended : stop.kind = .eof) (member : s ∈ program) :
    ∃ mid, mid <:+ tokens ∧ mid ≠ [] ∧
      (declaration (expression limit) (statement limit) stop mid).outcome = .ok s := by
  have each : ∀ _ : Nat, Orderly (nextDeclaration .eof (expression limit) (statement limit)) :=
    fun _ => orderly_nextDeclaration _ (orderly_expression limit) (orderly_statement limit)
  obtain ⟨_, mid, within, stepped⟩ := repeated_items each done member
  obtain ⟨token, peeked, after, _⟩ := bind_ok stepped
  split at after
  · simp [pure, Parser.pure] at after
  · rename_i going
    obtain ⟨found, declared, built, _⟩ := bind_ok after
    obtain rfl : found = s := by simpa [pure, Parser.pure] using built
    refine ⟨mid, within, ?_, declared⟩
    rintro rfl
    obtain rfl : stop = token := Except.ok.inj peeked
    exact going (.inl ended)

/-- Each statement of the program is `bad` or stands somewhere among the tokens. -/
theorem mem_declarations (ended : stop.kind = .eof)
    (done : (declarations limit stop tokens).outcome = .ok program) (member : s ∈ program) :
    (∃ start e, s = .bad start e) ∨
      ∃ mid rest, mid <:+ tokens ∧ StmtFits true limit s mid rest := by
  obtain ⟨mid, within, _, declared⟩ := declared_declarations done ended member
  rcases declaration_fits ended mid declared with ⟨e, bad⟩ | fits
  · exact .inl ⟨_, e, bad⟩
  · exact .inr ⟨mid, _, within, fits⟩

/-- The token that a `bad` statement begins with stands among the tokens. -/
theorem start_mem_declarations (ended : stop.kind = .eof)
    (done : (declarations limit stop tokens).outcome = .ok program) (member : .bad start e ∈ program) :
    start ∈ tokens := by
  obtain ⟨mid, within, nonempty, declared⟩ := declared_declarations done ended member
  rcases declaration_fits ended mid declared with ⟨_, bad⟩ | fits
  · obtain ⟨t, more, rfl⟩ := List.exists_cons_of_ne_nil nonempty
    obtain ⟨rfl, _⟩ := Stmt.bad.inj bad
    exact within.subset List.mem_cons_self
  · exact fits.canonical.elim

end Parser

section Tokens

variable {body rest : List Token} {stop : Token}

theorem stopToken_append (bare : ∀ t ∈ body, t.kind ≠ .eof) (ended : stop.kind = .eof) :
    stopToken (body ++ stop :: rest) = stop := by
  have found : (body ++ stop :: rest).find? (·.kind == .eof) = some stop := by
    rw [List.find?_append, List.find?_eq_none.mpr (by simpa using bare)]
    simp [ended]
  rw [stopToken, found]

theorem takeWhile_body (bare : ∀ t ∈ body, t.kind ≠ .eof) (ended : stop.kind = .eof) :
    (body ++ stop :: rest).takeWhile (·.kind != .eof) = body := by
  rw [List.takeWhile_append_of_pos (by simpa using bare)]
  simp [ended]

theorem parseTokens_eq (bare : ∀ t ∈ body, t.kind ≠ .eof) (ended : stop.kind = .eof) :
    parseTokens limit (body ++ stop :: rest) =
      let reply := Parser.declarations limit stop body
      (reply.outcome.toOption.getD [], reply.errors) := by
  rw [parseTokens, stopToken_append bare ended, takeWhile_body bare ended]

/-- Parsing ends without complaint where the declarations are accepted. -/
theorem parseTokens_accepts :
    parseTokens limit tokens = (program, []) ↔ ∃ rest, (Parser.declarations limit).Accepts
      (stopToken tokens) (tokens.takeWhile (·.kind != .eof)) program rest := by
  obtain ⟨found, done⟩ := Parser.lasting_declarations limit (stopToken tokens)
    (tokens.takeWhile (·.kind != .eof))
  unfold parseTokens Parser.Accepts
  generalize Parser.declarations limit (stopToken tokens) (tokens.takeWhile (·.kind != .eof)) =
    reply at done
  obtain ⟨outcome, errors, rest⟩ := reply
  simp only at done
  simp [done, Except.toOption]

/-- Parsing without complaint, on the tokens before the end token. -/
theorem parseTokens_clean (bare : ∀ t ∈ body, t.kind ≠ .eof) (ended : stop.kind = .eof) :
    parseTokens limit (body ++ stop :: rest) = (program, []) ↔
      Stmt.CanonicalAll program ∧ Stmt.nestingAll program ≤ limit ∧
        Spells (Stmt.yieldAll program) body := by
  have accepted : parseTokens limit (body ++ stop :: rest) = (program, []) ↔
      ∃ left, (Parser.declarations limit).Accepts stop body program left := by
    rw [parseTokens_accepts, stopToken_append bare ended, takeWhile_body bare ended]
  simp only [accepted, Parser.accepts_program ended]
  constructor
  · rintro ⟨left, canonical, shallow, reading, ends⟩
    refine ⟨canonical, shallow, reads_to_end.mp ?_⟩
    cases left with
    | nil => exact reading
    | cons t left =>
      obtain ⟨taken, rfl, _⟩ := reading
      exact absurd ends (bare t (by simp))
  · rintro ⟨canonical, shallow, spelled⟩
    exact ⟨[], canonical, shallow, reads_to_end.mpr spelled, ended⟩

theorem stopToken_kind (tokens : List Token) : (stopToken tokens).kind = .eof := by
  unfold stopToken
  cases found : tokens.find? (·.kind == .eof) with
  | none => rfl
  | some stop => simpa using List.find?_some found

/-- Each statement that is parsed is `bad` or stands somewhere among the tokens. -/
theorem fits_parseTokens (member : s ∈ (parseTokens limit tokens).1) :
    (∃ start e, s = .bad start e) ∨
      ∃ mid rest, mid <:+ tokens.takeWhile (·.kind != .eof) ∧
        Parser.StmtFits true limit s mid rest := by
  obtain ⟨program, done⟩ := Parser.lasting_declarations limit (stopToken tokens)
    (tokens.takeWhile (·.kind != .eof))
  have among : s ∈ program := by simpa [parseTokens, done, Except.toOption] using member
  exact Parser.mem_declarations (stopToken_kind tokens) done among

/-- Each statement that is parsed is `bad` or canonical, and then it keeps only tokens that were
given. -/
theorem mem_parseTokens (member : s ∈ (parseTokens limit tokens).1) :
    (∃ start e, s = .bad start e) ∨
      s.Canonical true ∧ ∀ t, Leaf.kept t ∈ s.yield → t ∈ tokens := by
  obtain bad | ⟨mid, rest, within, fits⟩ := fits_parseTokens member
  · exact .inl bad
  · refine .inr ⟨fits.canonical, fun t kept => ?_⟩
    obtain ⟨taken, rfl, spelled⟩ := fits.reading
    have inside : t ∈ taken ++ rest := List.mem_append_left rest (spelled.kept_mem kept)
    exact List.takeWhile_subset _ (within.subset inside)

/-- A statement that could not be parsed begins with a token that was given, before the end token. -/
theorem start_mem_parseTokens (member : .bad start e ∈ (parseTokens limit tokens).1) :
    start ∈ tokens.takeWhile (·.kind != .eof) := by
  obtain ⟨program, done⟩ := Parser.lasting_declarations limit (stopToken tokens)
    (tokens.takeWhile (·.kind != .eof))
  have among : .bad start e ∈ program := by simpa [parseTokens, done, Except.toOption] using member
  exact Parser.start_mem_declarations (stopToken_kind tokens) done among

/-- What is parsed nests no deeper than the limit, also after complaints. -/
theorem nesting_parseTokens (limit : Nat) (tokens : List Token) :
    Stmt.nestingAll (parseTokens limit tokens).1 ≤ limit := by
  rw [Stmt.nestingAll_le]
  intro s member
  obtain ⟨start, e, rfl⟩ | ⟨mid, rest, _, fits⟩ := fits_parseTokens member
  · exact Nat.zero_le _
  · exact fits.shallow

end Tokens

/-- Parsing undoes the row of tokens of a canonical program, as soon as the limit allows for its
nesting. -/
theorem parseTokens_yield {program : List Stmt} {limit : Nat} {tokens : List Token} {stop : Token}
    (canonical : Stmt.CanonicalAll program) (shallow : Stmt.nestingAll program ≤ limit)
    (spelled : Spells (Stmt.yieldAll program) tokens) (ended : stop.kind = .eof) :
    parseTokens limit (tokens ++ [stop]) = (program, []) :=
  (parseTokens_clean (canonical.bare spelled) ended).mpr ⟨canonical, shallow, spelled⟩

/-- An `else` after a block goes back over the open `if` inside it. -/
theorem parseTokens_yield_past_block :
    parseTokens 5
      ([{ kind := .ifWord }, { kind := .leftParen }, { kind := .minus }, { kind := .identifier },
        { kind := .equalEqual }, { kind := .identifier }, { kind := .rightParen },
        { kind := .leftBrace }, { kind := .ifWord }, { kind := .leftParen }, { kind := .nilWord },
        { kind := .rightParen }, { kind := .identifier }, { kind := .semicolon },
        { kind := .rightBrace }, { kind := .elseWord }, { kind := .printWord },
        { kind := .identifier }, { kind := .semicolon }] ++ [{ kind := .eof }]) =
    ([.ifElse (.binary (.unary { kind := .minus } (.var { kind := .identifier }))
        { kind := .equalEqual } (.var { kind := .identifier }))
      (.block { kind := .leftBrace } [.ifThen (.literal .nil { kind := .nilWord })
        (.expression (.var { kind := .identifier }))])
      (.print (.var { kind := .identifier }))], []) := by
  apply parseTokens_yield
  · simp [Stmt.CanonicalAll, Stmt.Canonical, Expr.Canonical, TokenKind.precedence, Expr.rank,
      Stmt.openEnded, Token.constant?]
  · decide
  · simp [Spells, Stmt.yieldAll, Stmt.yield, Expr.yield, Leaf.Matches]
  · rfl

/-- What is parsed without complaint is canonical and stands for exactly the tokens that were given. -/
theorem parseTokens_sound {limit : Nat} {tokens : List Token} {stop : Token}
    (bare : ∀ t ∈ tokens, t.kind ≠ .eof) (ended : stop.kind = .eof)
    (clean : (parseTokens limit (tokens ++ [stop])).2 = []) :
    Stmt.CanonicalAll (parseTokens limit (tokens ++ [stop])).1 ∧
      Spells (Stmt.yieldAll (parseTokens limit (tokens ++ [stop])).1) tokens := by
  obtain ⟨canonical, _, spelled⟩ := (parseTokens_clean bare ended).mp (Prod.ext rfl clean)
  exact ⟨canonical, spelled⟩

/-- Of two branches, the `else` belongs to the inner one. -/
theorem parseTokens_sound_nested_if :
    let tokens : List Token := [{ kind := .ifWord }, { kind := .leftParen }, { kind := .nilWord },
      { kind := .rightParen }, { kind := .ifWord }, { kind := .leftParen }, { kind := .nilWord },
      { kind := .rightParen }, { kind := .identifier }, { kind := .semicolon }, { kind := .elseWord },
      { kind := .identifier }, { kind := .semicolon }]
    let program := (parseTokens 5 (tokens ++ [{ kind := .eof }])).1
    Stmt.CanonicalAll program ∧ Spells (Stmt.yieldAll program) tokens := by
  intro tokens program
  have bare : ∀ t ∈ tokens, t.kind ≠ .eof := by decide
  have clean : (parseTokens 5 (tokens ++ [{ kind := .eof }])).2 = [] := by decide +kernel
  exact parseTokens_sound bare rfl clean

end LoxLang
