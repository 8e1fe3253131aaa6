import LoxLang.Proofs.Totality

/-! Recovery after a syntax error. Each declaration of a program takes a row of tokens of its own, and
these rows are all the tokens before the end: nothing is lost between them. A declaration that was
unwound leaves off where parsing can go on, and the next one begins with all levels of nesting left. -/
namespace LoxLang

/-- Parsing can go on between the two rows: after a semicolon, before a token that begins a statement,
or because nothing is left. -/
def Resumable (segment following : List Token) : Prop :=
  (∃ t, segment.getLast? = some t ∧ t.kind = .semicolon) ∨
    (∃ t, following.head? = some t ∧ Parser.startsStatement t.kind = true) ∨ following = []

theorem Resumable.append_left {segment following : List Token}
    (resumable : Resumable segment following) (used : List Token) :
    Resumable (used ++ segment) following := by
  rcases resumable with ⟨t, last, semicolon⟩ | later
  · exact .inl ⟨t, by rw [List.getLast?_append, last, Option.some_or], semicolon⟩
  · exact .inr later

namespace Parser

theorem boundary_resumable (last : Token) (tokens : List Token) :
    ∃ dropped, tokens = dropped ++ boundary last tokens ∧
      Resumable (last :: dropped) (boundary last tokens) := by
  induction tokens generalizing last with
  | nil => exact ⟨[], rfl, .inr (.inr rfl)⟩
  | cons t tokens ih =>
    rw [boundary]
    split
    · rename_i here
      refine ⟨[], rfl, ?_⟩
      rcases here with semicolon | starts
      · exact .inl ⟨last, rfl, semicolon⟩
      · exact .inr (.inl ⟨t, rfl, starts⟩)
    · obtain ⟨dropped, split, resumable⟩ := ih t
      exact ⟨t :: dropped, congrArg (t :: ·) split, resumable.append_left [last]⟩

theorem synchronize_resumable (tokens : List Token) :
    ∃ dropped, tokens = dropped ++ synchronize tokens ∧
      Resumable dropped (synchronize tokens) := by
  cases tokens with
  | nil => exact ⟨[], rfl, .inr (.inr rfl)⟩
  | cons t tokens =>
    obtain ⟨dropped, split, resumable⟩ := boundary_resumable t tokens
    exact ⟨t :: dropped, congrArg (t :: ·) split, resumable⟩

section Lists

variable {expr : Parser Expr} {stmt : Parser Stmt} {stop : Token} {tokens segment : List Token}

theorem nextDeclaration_goes
    (going : ¬ ((tokens.headD stop).kind = close ∨ (tokens.headD stop).kind = .eof)) :
    nextDeclaration close expr stmt stop tokens =
      (do return some (← declaration expr stmt) : Parser (Option Stmt)) stop tokens := by
  have seen : peek.Accepts stop tokens (tokens.headD stop) tokens := rfl
  rw [nextDeclaration, seen.bind_eq, if_neg going]

/-- Where a token is left, the declarations are one and then those of what that leaves. -/
theorem repeated_declaration (steady : Steady (fun _ => nextDeclaration close expr stmt) stop)
    (going : ¬ ((tokens.headD stop).kind = close ∨ (tokens.headD stop).kind = .eof))
    (done : (repeated (fun _ => nextDeclaration close expr stmt) stop tokens).outcome = .ok program) :
    ∃ s later, program = s :: later ∧ (declaration expr stmt stop tokens).outcome = .ok s ∧
      (repeated (fun _ => nextDeclaration close expr stmt) stop
        (declaration expr stmt stop tokens).rest).outcome = .ok later := by
  rw [repeated_eq, repeatedFrom_round steady, repeatedFrom_const] at done
  obtain ⟨found, stepped, after, _⟩ := bind_ok done
  dsimp only at stepped after
  rw [nextDeclaration_goes going] at stepped after
  obtain ⟨s, declared, same, left⟩ := bind_ok stepped
  obtain rfl : some s = found := by simpa [pure, Parser.pure] using same
  rw [left] at after
  obtain ⟨later, others, same, _⟩ := bind_ok after
  obtain rfl : s :: later = program := by simpa [pure, Parser.pure] using same
  exact ⟨s, later, rfl, declared, others⟩

/-- A declaration that gives up leaves off where parsing can go on. -/
theorem declaration_resumable (orderly : Orderly (attempt expr stmt))
    (declared : declaration expr stmt stop tokens = { outcome := .ok s, errors, rest })
    (split : tokens = segment ++ rest)
    (gaveUp : (attempt expr stmt stop tokens).outcome = .error e) : Resumable segment rest := by
  have settled : rest = synchronize (attempt expr stmt stop tokens).rest := by
    have left : (declaration expr stmt stop tokens).rest = rest := by rw [declared]
    rw [← left, declaration_eq, settle, gaveUp]
  obtain ⟨used, before⟩ := orderly.leaves stop tokens
  obtain ⟨dropped, parted, resumable⟩ := synchronize_resumable (attempt expr stmt stop tokens).rest
  rw [← settled] at parted resumable
  have same : segment = used ++ dropped := by
    apply List.append_cancel_right
    rw [← split, List.append_assoc, ← parted, before]
  rw [same]
  exact resumable.append_left used

end Lists

section Programs

variable {stop : Token} {limit : Nat} (ended : stop.kind = .eof)
include ended

theorem steady_declarations (limit : Nat) :
    Steady (fun _ => nextDeclaration .eof (expression limit) (statement limit)) stop :=
  steady_nextDeclaration ended .eof (orderly_expression limit) (orderly_statement limit)
    (consumes_statement ended limit)

theorem declarations_nil (done : (declarations limit stop []).outcome = .ok program) :
    program = [] := by
  have empty : (declarations limit).Accepts stop [] [] [] :=
    (accepts_repeated_nil (steady_declarations ended limit)).mpr
      ((steady_declarations ended limit).ends 0)
  rw [empty] at done
  exact (Except.ok.inj done).symm

end Programs

end Parser

/-- One declaration of a program, from where the cursor is to where it is next, over the tokens
`segment`, with `following` after them. -/
structure Stage (fuel : Nat) (here next : Cursor) (segment following : List Token) (s : Stmt) :
    Prop where
  declares : Walk.topDeclaration fuel here = .done s next
  outermost : here.depth = 0
  moves : next.current = here.current + segment.length
  nonempty : segment ≠ []
  whole : (∀ start e, s ≠ .bad start e) → Spells s.yield segment
  blames : ∀ start e, s = .bad start e → segment.head? = some start
  resumes : ∀ e stuck, Walk.topAttempt fuel here = .unwound e stuck → Resumable segment following

/-- The declarations from where the cursor is up to the end token, each with the tokens that it took. -/
inductive Trail (fuel : Nat) : Cursor → List (List Token × Stmt) → Prop where
  | ended (seen : Walk.peek here = .done stop here) (kind : stop.kind = .eof) : Trail fuel here []
  | stage {segment : List Token} (first : Stage fuel here next segment (later.map Prod.fst).flatten s)
      (others : Trail fuel next later) : Trail fuel here ((segment, s) :: later)

section Trails

variable {stop : Token} {limit fuel : Nat} {tokens : List Token} {here : Cursor} {s : Stmt}
  {program : List Stmt}

/-- The declaration at the cursor is a stage, and the cursor then faces what is left. -/
theorem stage_of_faces (enough : Walk.callsFor .assignment limit ≤ fuel)
    (faces : here.Faces stop fuel limit tokens) (outermost : here.depth = 0) (nonempty : tokens ≠ [])
    (declared : (Parser.declaration (Parser.expression limit) (Parser.statement limit) stop
      tokens).outcome = .ok s) :
    ∃ next segment rest, Stage fuel here next segment rest s ∧ tokens = segment ++ rest ∧
      (Parser.declaration (Parser.expression limit) (Parser.statement limit) stop tokens).rest = rest ∧
      next.Faces stop fuel limit rest ∧ next.depth = 0 := by
  have ended := faces.ended
  have attempts := Walk.follows_topAttempt ended limit fuel enough
  have going : (tokens.headD stop).kind ≠ .eof := fun eof => nonempty (faces.head_kind.mp eof)
  have agrees := Walk.followsAt_declaration attempts going tokens here faces rfl
  have costs := Parser.declaration_costs (Parser.orderly_expression limit)
    (Parser.orderly_statement limit) (Parser.consumes_statement ended limit) nonempty
  generalize answer : Parser.declaration (Parser.expression limit) (Parser.statement limit) stop tokens
    = reply at agrees declared costs
  generalize run : Walk.declaration fuel _ _ here = ending at agrees
  cases agrees with
  | unwound e used errors rest depth split => cases declared
  | done a used errors rest split =>
    obtain rfl := Except.ok.inj declared
    have taken : used ≠ [] := by
      rintro rfl
      exact absurd costs (by simp [split])
    refine ⟨here.after used errors, used, rest, ?_, split, rfl, faces.after split errors, outermost⟩
    have known := Parser.declaration_fits ended tokens (congrArg Reply.outcome answer)
    rw [answer] at known
    refine ⟨run, outermost, rfl, taken, ?_, ?_, ?_⟩
    · intro sound
      rcases known with ⟨e, bad⟩ | fits
      · exact absurd bad (sound _ e)
      · obtain ⟨whole, parted, spelled⟩ := fits.reading
        rwa [List.append_cancel_right (split.symm.trans parted)]
    · rintro start e rfl
      rcases known with ⟨_, bad⟩ | fits
      · obtain ⟨t, more, rfl⟩ := List.exists_cons_of_ne_nil taken
        rw [(Stmt.bad.inj bad).1, split]
        rfl
      · exact fits.canonical.elim
    · intro e stuck unwound
      have failing := attempts tokens here faces
      rw [unwound] at failing
      exact Parser.declaration_resumable
        (Parser.orderly_attempt (Parser.orderly_expression limit) (Parser.orderly_statement limit))
        answer split failing.gaveUp

/-- From where the cursor is, the declarations take all the tokens up to the end token. -/
theorem trail_of_faces (enough : Walk.callsFor .assignment limit ≤ fuel)
    (faces : here.Faces stop fuel limit tokens) (outermost : here.depth = 0)
    (done : (Parser.declarations limit stop tokens).outcome = .ok program) :
    ∃ cuts : List (List Token × Stmt), cuts.map Prod.snd = program ∧
      (cuts.map Prod.fst).flatten = tokens ∧ Trail fuel here cuts := by
  -- Each declaration takes a token, so there are fewer left for the ones after it.
  induction count : tokens.length using Nat.strongRecOn generalizing tokens here program with
  | ind size ih =>
    by_cases nonempty : tokens = []
    · subst nonempty
      obtain rfl := Parser.declarations_nil faces.ended done
      exact ⟨[], rfl, rfl, .ended (Walk.peek_eq faces) faces.ended⟩
    · have going : ¬ ((tokens.headD stop).kind = .eof ∨ (tokens.headD stop).kind = .eof) := by
        rw [or_self, faces.head_kind]
        exact nonempty
      obtain ⟨s, later, rfl, declared, others⟩ :=
        Parser.repeated_declaration (Parser.steady_declarations faces.ended limit) going done
      obtain ⟨next, segment, rest, first, split, left, faced, again⟩ :=
        stage_of_faces enough faces outermost nonempty declared
      have fewer : rest.length < size := by
        have taken := List.length_pos_iff.mpr first.nonempty
        rw [← count, split, List.length_append]
        omega
      rw [left] at others
      obtain ⟨cuts, statements, rows, trail⟩ := ih rest.length fewer faced again others rfl
      subst rows
      refine ⟨(segment, s) :: cuts, by rw [List.map_cons, statements], ?_, .stage first trail⟩
      rw [List.map_cons, List.flatten_cons, ← split]

end Trails

/-- The statements of a program take the tokens before the end row by row, and a declaration that was
unwound leaves off where parsing can go on. -/
theorem recovery_loses_no_token (limit fuel : Nat) (tokens : List Token)
    (enough : tokens.length + 2 * limit < fuel) :
    ∃ cuts : List (List Token × Stmt), cuts.map Prod.snd = (parseTokens limit tokens).1 ∧
      (cuts.map Prod.fst).flatten = tokens.takeWhile (·.kind != .eof) ∧
      Trail fuel (Cursor.start limit tokens) cuts := by
  have calls : Walk.callsFor .assignment limit ≤ fuel := by
    simp only [Walk.callsFor]
    omega
  have faces : (Cursor.start limit tokens).Faces (stopToken tokens) fuel limit _ :=
    Cursor.start_faces limit tokens (by omega)
  obtain ⟨program, done⟩ := Parser.lasting_declarations limit (stopToken tokens)
    (tokens.takeWhile (·.kind != .eof))
  have parsed : (parseTokens limit tokens).1 = program := by
    simp only [parseTokens, done]
    rfl
  rw [parsed]
  exact trail_of_faces calls faces rfl done

/-- A stray brace is unwound at once, and recovery stops after the semicolon. -/
theorem recovery_loses_no_token_after_brace :
    let tokens : List Token := [{ kind := .rightBrace }, { kind := .semicolon }, { kind := .identifier },
      { kind := .semicolon }, { kind := .leftParen }, { kind := .classWord }]
    tokens.length + 2 * 3 < 13 ∧
      (∃ e stuck, Walk.topAttempt 13 (Cursor.start 3 tokens) = .unwound e stuck) ∧
      ∃ cuts : List (List Token × Stmt), cuts.map Prod.snd = (parseTokens 3 tokens).1 ∧
        (cuts.map Prod.fst).flatten = tokens ∧ Trail 13 (Cursor.start 3 tokens) cuts := by
  intro tokens
  have enough : tokens.length + 2 * 3 < 13 := by decide
  exact ⟨enough, ⟨_, _, rfl⟩, recovery_loses_no_token 3 13 tokens enough⟩

end LoxLang
