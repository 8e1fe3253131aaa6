import LoxLang.Proofs.Machine.Moved
import LoxLang.Proofs.Parser.Moved
import LoxLang.Proofs.Safety
import LoxLang.Proofs.Text.Utf8

/-! Splitting a program at a newline. A source that is parsed without complaint is parsed the same way
whatever comes after it, up to an `else`, and what comes after it is parsed as it is on its own, only
further down. So running sources one after the other is running all of them as one. -/
namespace LoxLang
namespace Parser

/-- Statements that stand at the start of the tokens are read first, and the rest as if it was alone. -/
theorem declarations_after (ended : stop.kind = .eof) (canonical : Stmt.CanonicalAll program)
    (shallow : Stmt.nestingAll program ≤ limit) (reading : Reads (Stmt.yieldAll program) tokens rest)
    (last : Avoids [.elseWord] rest) (done : (declarations limit stop rest).outcome = .ok others) :
    declarations limit stop tokens =
      { declarations limit stop rest with outcome := .ok (program ++ others) } := by
  have steady : Steady (fun _ => nextDeclaration .eof (expression limit) (statement limit)) stop :=
    steady_nextDeclaration ended .eof (orderly_expression limit) (orderly_statement limit)
      (consumes_statement ended limit)
  have parses := parses_declaration ended (parses_expression ended limit) (orderly_expression limit)
    (orderly_statement limit) (parses_statement ended limit)
  induction program generalizing tokens with
  | nil =>
    obtain rfl := reads_nil.mp reading
    rw [List.nil_append, ← done]
  | cons s program ih =>
    obtain ⟨mid, here, later⟩ := reads_append.mp reading
    obtain ⟨first, following⟩ := Nat.max_le.mp shallow
    have tail := ih canonical.2 following later
    have fits : StmtFits true limit s tokens mid :=
      ⟨canonical.1, first, here, fun _ => avoids_else canonical.2 later last⟩
    have starts : ¬ ((tokens.headD stop).kind = .eof ∨ (tokens.headD stop).kind = .eof) := by
      obtain ⟨t, more, rfl, starts, _⟩ := fits.start
      rw [or_self]
      intro kind
      simp [show t.kind = .eof from kind, TokenKind.startsDeclaration,
        TokenKind.startsExpression] at starts
    have accepted := accepts_nextDeclaration_some.mpr ⟨(parses _ _ _).mpr fits, starts⟩
    have whole := repeated_item steady accepted (congrArg Reply.outcome tail)
    rw [declarations, whole, ← declarations, tail]
    rfl

end Parser

section Sources

variable {limit : Nat} {file : String} {first : List Char}

theorem parse_clean (clean : (parse limit file first).diagnostics = []) :
    (scan file first).2 = [] ∧ (parseTokens limit (scan file first).1).2 = [] := by
  obtain ⟨lexical, syntactic⟩ := List.append_eq_nil_iff.mp clean
  exact ⟨List.map_eq_nil_iff.mp lexical, List.map_eq_nil_iff.mp syntactic⟩

theorem parseTokens_seam {body other : List Token} {stop : Token}
    (bare : ∀ t ∈ body, t.kind ≠ .eof) (ended : stop.kind = .eof)
    (clean : (parseTokens limit (body ++ [stop])).2 = []) (kinds : ∀ t ∈ other, t.kind ≠ .eof)
    (last : Parser.Avoids [.elseWord] other) (closing : Token) (closes : closing.kind = .eof) :
    parseTokens limit (body ++ (other ++ [closing])) =
      ((parseTokens limit (body ++ [stop])).1 ++ (parseTokens limit (other ++ [closing])).1,
        (parseTokens limit (other ++ [closing])).2) := by
  obtain ⟨canonical, shallow, spelled⟩ := (parseTokens_clean bare ended).mp (Prod.ext rfl clean)
  obtain ⟨others, done⟩ := Parser.lasting_declarations limit closing other
  have reading := (reads_to_end.mpr spelled).weaken other
  have after := Parser.declarations_after closes canonical shallow reading last done
  have both : ∀ t ∈ body ++ other, t.kind ≠ .eof := by
    intro t member
    rcases List.mem_append.mp member with here | there
    · exact bare t here
    · exact kinds t there
  rw [← List.append_assoc, parseTokens_eq both closes, after, parseTokens_eq kinds closes]
  simp [done, Except.toOption]

theorem moved_bare (g : Position → Position) {tokens : List Token}
    (bare : ∀ t ∈ tokens, t.kind ≠ .eof) : ∀ t ∈ tokens.map (Token.move g), t.kind ≠ .eof := by
  intro t member
  obtain ⟨u, among, rfl⟩ := List.mem_map.mp member
  exact bare u among

theorem parseTokens_move (g : Position → Position) {body : List Token} {stop : Token}
    (bare : ∀ t ∈ body, t.kind ≠ .eof) (ended : stop.kind = .eof) :
    parseTokens limit (body.map (Token.move g) ++ [stop.move g]) =
      ((parseTokens limit (body ++ [stop])).1.map (Stmt.move g),
        (parseTokens limit (body ++ [stop])).2.map (SyntaxError.move g)) := by
  have moved_ended : (stop.move g).kind = .eof := ended
  have moves := Parser.moves_declarations (g := g) limit stop body
  obtain ⟨program, done⟩ := Parser.lasting_declarations limit stop body
  rw [parseTokens_eq (moved_bare g bare) moved_ended, parseTokens_eq bare ended, moves]
  simp [Reply.move, done, Except.toOption]

/-- What is parsed after a source without complaint and a newline is parsed as on its own, only further
down. -/
theorem parse_seam (clean : (parse limit file first).diagnostics = []) {second : List Char}
    (last : Parser.Avoids [.elseWord] (scan file second).1) :
    parse limit file (first ++ '\n' :: second) =
      let below := (parse limit file second).move (.down (lineCount first))
      { below with program := (parse limit file first).program ++ below.program } := by
  obtain ⟨lexical, syntactic⟩ := parse_clean clean
  obtain ⟨body, stop, ends, bare, seam⟩ := scan_seam lexical second
  obtain ⟨other, closing, closes, kinds⟩ := scan_ends file second
  rw [ends] at syntactic
  have moved_last : Parser.Avoids [.elseWord] (other.map (Token.move (.down (lineCount first)))) := by
    rw [closes] at last
    cases other with
    | nil => exact Parser.avoids_nil
    | cons t other =>
      rw [List.cons_append, Parser.avoids_cons] at last
      exact Parser.avoids_cons.mpr last
  have joined := parseTokens_seam bare rfl syntactic (moved_bare _ kinds) moved_last
    ((endToken closing).move (.down (lineCount first))) rfl
  rw [parseTokens_move _ kinds rfl] at joined
  rw [closes, List.map_append, List.map_singleton] at seam
  simp only [parse, Parsed.move, seam, ends, closes, joined]

/-- A source without complaint does not begin with `else`. -/
theorem clean_avoids_else (clean : (parse limit file first).diagnostics = []) :
    Parser.Avoids [.elseWord] (scan file first).1 := by
  obtain ⟨lexical, syntactic⟩ := parse_clean clean
  obtain ⟨body, stop, ends, bare⟩ := scan_ends file first
  rw [ends] at syntactic ⊢
  obtain ⟨canonical, _, spelled⟩ := (parseTokens_clean bare rfl).mp (Prod.ext rfl syntactic)
  have reading := (reads_to_end.mpr spelled).weaken [endToken stop]
  exact Parser.avoids_else canonical reading (by simp [endToken])

end Sources

/-- What a run stops with, if it does not come to its end, and the machine that it leaves. -/
def Machine.outcome : EStateM.Result Stop Machine α → Option Stop × Machine
  | .ok _ m => (none, m)
  | .error stop m => (some stop, m)

theorem Machine.outcome_moved (g : Position → Position) (result : EStateM.Result Stop Machine α) :
    outcome (moved g result) = ((outcome result).1.map (Stop.move g), (outcome result).2) := by
  cases result <;> rfl

/-- The value that statements begin with shows only in their value. -/
theorem outcome_foldlM (rounds : Nat) (program : List Stmt) (before other : Value) (m : Machine) :
    Machine.outcome (program.foldlM (fun _ s => s.execute rounds) before m) =
      Machine.outcome (program.foldlM (fun _ s => s.execute rounds) other m) := by
  cases program <;> rfl

/-- Statements after others run on the machine that those leave, if those come to their end. -/
theorem outcome_append (rounds : Nat) (first second : List Stmt) (m : Machine) :
    Machine.outcome (runProgram rounds (first ++ second) m) =
      match runProgram rounds first m with
      | .ok _ m' => Machine.outcome (runProgram rounds second m')
      | .error stop m' => (some stop, m') := by
  have sequence : runProgram rounds (first ++ second) m =
      EStateM.bind (runProgram rounds first)
        (second.foldlM (fun _ s => s.execute rounds)) m := by
    rw [runProgram, List.foldlM_append]
    rfl
  rw [sequence]
  unfold EStateM.bind
  cases done : runProgram rounds first m with
  | error stop m' => rfl
  | ok value m' => exact outcome_foldlM rounds second value .void m'

/-- Runs sources one after the other, up to the first that stops. Of that one it says which sources
come before it and what it stops with. -/
def runInTurn (rounds limit : Nat) (file : String) :
    List (List UInt8) → Machine → Option (List (List UInt8) × Stop) × Machine
  | [], m => (none, m)
  | source :: others, m =>
    match runProgram rounds (parse limit file (Text.decodeUtf8 source)).program m with
    | .error stop m => (some ([], stop), m)
    | .ok _ m =>
      let (stopped, m) := runInTurn rounds limit file others m
      (stopped.map fun (before, stop) => (source :: before, stop), m)

/-- The sources as one, with a newline between any two. -/
def joined (sources : List (List UInt8)) : List UInt8 := [10].intercalate sources

def linesAbove : List (List UInt8) → Nat
  | [] => 0
  | source :: others => lineCount (Text.decodeUtf8 source) + linesAbove others

theorem joined_cons (source next : List UInt8) (others : List (List UInt8)) :
    joined (source :: next :: others) = source ++ 10 :: joined (next :: others) := by
  simp [joined, List.intercalate]

theorem Position.down_zero : down 0 = id := by
  funext p
  simp [down]

theorem Position.down_down (lines more : Nat) : down lines ∘ down more = down (lines + more) := by
  funext p
  simp [down]
  omega

theorem Stop.move_id (stop : Stop) : stop.move id = stop := by
  cases stop <;> rfl

theorem Stop.move_move (g h : Position → Position) (stop : Stop) :
    (stop.move h).move g = stop.move (g ∘ h) := by
  cases stop <;> rfl

theorem parse_empty (limit : Nat) (file : String) :
    parse limit file [] = { program := [], lexical := [], syntactic := [] } := by
  have none : scan file [] = ([endToken (.start file)], []) := by
    rw [scan_eq, pieces]
    rfl
  rw [parse, none]
  rfl

section Turns

variable {limit : Nat} {file : String} {sources : List (List UInt8)}

theorem joined_clean
    (clean : ∀ source ∈ sources, (parse limit file (Text.decodeUtf8 source)).diagnostics = []) :
    (parse limit file (Text.decodeUtf8 (joined sources))).diagnostics = [] := by
  induction sources with
  | nil =>
    rw [joined, List.intercalate_nil, Text.decodeUtf8, parse_empty]
    rfl
  | cons source others ih =>
    obtain ⟨here, later⟩ := List.forall_mem_cons.mp clean
    cases others with
    | nil => simpa [joined] using here
    | cons next others =>
      have rest := ih later
      have below := Parsed.diagnostics_move (.down (lineCount (Text.decodeUtf8 source)))
        (parse limit file (Text.decodeUtf8 (joined (next :: others))))
      rw [rest] at below
      rw [joined_cons, Text.decodeUtf8_seam, parse_seam here (clean_avoids_else rest)]
      exact below

/-- Running the sources as one is running them in turn, where the one that stops, if any, lies below
those before it. -/
theorem outcome_joined (rounds : Nat)
    (clean : ∀ source ∈ sources, (parse limit file (Text.decodeUtf8 source)).diagnostics = [])
    (m : Machine) :
    Machine.outcome (runProgram rounds (parse limit file (Text.decodeUtf8 (joined sources))).program m) =
      ((runInTurn rounds limit file sources m).1.map fun (before, stop) =>
          stop.move (.down (linesAbove before)),
        (runInTurn rounds limit file sources m).2) := by
  induction sources generalizing m with
  | nil =>
    rw [joined, List.intercalate_nil, Text.decodeUtf8, parse_empty]
    rfl
  | cons source others ih =>
    obtain ⟨here, later⟩ := List.forall_mem_cons.mp clean
    have alone (stop : Stop) : stop.move (.down (linesAbove [])) = stop := by
      change stop.move (.down 0) = stop
      rw [Position.down_zero, Stop.move_id]
    cases others with
    | nil =>
      rw [runInTurn, joined, List.intercalate_singleton]
      cases runProgram rounds (parse limit file (Text.decodeUtf8 source)).program m with
      | ok value m' => rfl
      | error stop m' => simp [Machine.outcome, alone]
    | cons next others =>
      have shifts (before : List (List UInt8)) (stop : Stop) :
          (stop.move (.down (linesAbove before))).move (.down (lineCount (Text.decodeUtf8 source))) =
            stop.move (.down (linesAbove (source :: before))) := by
        rw [Stop.move_move, Position.down_down]
        rfl
      rw [runInTurn, joined_cons, Text.decodeUtf8_seam,
        parse_seam here (clean_avoids_else (joined_clean later))]
      simp only [Parsed.move, outcome_append]
      cases runProgram rounds (parse limit file (Text.decodeUtf8 source)).program m with
      | error stop m' => simp [alone]
      | ok value m' =>
        simp only
        rw [moves_runProgram parse_proper rounds m', Machine.outcome_moved, ih later m']
        simp [Function.comp_def, shifts]

end Turns

/-- Splitting a program at a newline. After a source without complaint, what does not begin with `else`
is parsed as it is on its own, only further down. So sources without complaint do the same to a machine
when they are run in turn as when they are run as one, and stop with the same failure, where the token
to blame lies below the sources before its own. -/
theorem split_at_newlines (limit : Nat) (file : String) :
    (∀ first second : List UInt8, (parse limit file (Text.decodeUtf8 first)).diagnostics = [] →
      (∀ t ∈ (scan file (Text.decodeUtf8 second)).1.head?, t.kind ≠ .elseWord) →
      let above := parse limit file (Text.decodeUtf8 first)
      let below := (parse limit file (Text.decodeUtf8 second)).move
        (.down ((Text.decodeUtf8 first).count '\n' + 1))
      parse limit file (Text.decodeUtf8 (first ++ 10 :: second)) =
          { below with program := above.program ++ below.program } ∧
        (parse limit file (Text.decodeUtf8 (first ++ 10 :: second))).diagnostics =
          (parse limit file (Text.decodeUtf8 second)).diagnostics.map
            (Diagnostic.move (.down ((Text.decodeUtf8 first).count '\n' + 1)))) ∧
    ∀ (sources : List (List UInt8)) (rounds : Nat) (m : Machine),
      (∀ source ∈ sources, (parse limit file (Text.decodeUtf8 source)).diagnostics = []) →
      Machine.outcome
          (runProgram rounds (parse limit file (Text.decodeUtf8 (joined sources))).program m) =
        ((runInTurn rounds limit file sources m).1.map fun (before, stop) =>
            stop.move (.down (linesAbove before)),
          (runInTurn rounds limit file sources m).2) := by
  constructor
  · intro first second clean begins
    have last : Parser.Avoids [.elseWord] (scan file (Text.decodeUtf8 second)).1 := by
      intro t head
      simpa using begins t head
    have whole := parse_seam clean last
    rw [Text.decodeUtf8_seam]
    refine ⟨whole, ?_⟩
    rw [whole, ← Parsed.diagnostics_move]
    rfl
  · intro sources rounds m clean
    exact outcome_joined rounds clean m

/-- A comment just before the newline and a broken source after it; and a run that fails in the second
of two sources. -/
theorem split_at_newlines_past_comment :
    let first := "var a; // a".toUTF8.toList
    let second := ") \x7b print b;".toUTF8.toList
    let sources := ["var a = nil;".toUTF8.toList, "\n-a;".toUTF8.toList]
    (let above := parse 9 "" (Text.decodeUtf8 first)
      let below := (parse 9 "" (Text.decodeUtf8 second)).move
        (.down ((Text.decodeUtf8 first).count '\n' + 1))
      parse 9 "" (Text.decodeUtf8 (first ++ 10 :: second)) =
          { below with program := above.program ++ below.program } ∧
        (parse 9 "" (Text.decodeUtf8 (first ++ 10 :: second))).diagnostics =
          (parse 9 "" (Text.decodeUtf8 second)).diagnostics.map
            (Diagnostic.move (.down ((Text.decodeUtf8 first).count '\n' + 1)))) ∧
    Machine.outcome (runProgram 9 (parse 9 "" (Text.decodeUtf8 (joined sources))).program {}) =
      ((runInTurn 9 9 "" sources {}).1.map fun (before, stop) =>
          stop.move (.down (linesAbove before)),
        (runInTurn 9 9 "" sources {}).2) := by
  intro first second sources
  constructor
  · refine (split_at_newlines 9 "").1 first second ?_ ?_
    · exact List.isEmpty_iff.mp (by decide +kernel)
    · intro t head
      have kind : (scan "" (Text.decodeUtf8 second)).1.head?.map Token.kind = some .rightParen := by
        decide +kernel
      rw [Option.mem_def.mp head] at kind
      simp [Option.some.inj kind]
  · apply (split_at_newlines 9 "").2
    have clean : ∀ source ∈ sources,
        (parse 9 "" (Text.decodeUtf8 source)).diagnostics.isEmpty = true := by decide +kernel
    exact fun source member => List.isEmpty_iff.mp (clean source member)

end LoxLang
