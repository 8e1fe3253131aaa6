import LoxLang.Proofs.Cursor.Simulation
import LoxLang.Proofs.Parser.Program
import Mathlib.Data.List.TakeWhile

/-! Parsing always ends, on any row of tokens: the cursor finds every token that it looks for, nothing
that unwinds gets past a declaration, and the number of rounds is bounded by the tokens and the limit.
What comes after the first end token has no part in it. -/
namespace LoxLang

/-- The tokens up to the first end token, which is still there. -/
def untilEnd (tokens : List Token) : List Token :=
  tokens.takeWhile (·.kind != .eof) ++ (tokens.find? (·.kind == .eof)).toList

section Ends

variable {body rest : List Token} {stop : Token}

theorem untilEnd_append (bare : ∀ t ∈ body, t.kind ≠ .eof) (ended : stop.kind = .eof) :
    untilEnd (body ++ stop :: rest) = body ++ [stop] := by
  have absent : body.find? (·.kind == .eof) = none := List.find?_eq_none.mpr (by simpa using bare)
  rw [untilEnd, takeWhile_body bare ended, List.find?_append, absent]
  simp [ended]

theorem bare_takeWhile (tokens : List Token) :
    ∀ t ∈ tokens.takeWhile (·.kind != .eof), t.kind ≠ .eof := by
  intro t member
  simpa using List.mem_takeWhile_imp member

/-- A row of tokens is closed by its own first end token, or else by the one that is added. -/
theorem closed_eq (tokens : List Token) :
    ∃ beyond, closed tokens = tokens.takeWhile (·.kind != .eof) ++ stopToken tokens :: beyond := by
  cases found : tokens.find? (·.kind == .eof) with
  | some stop =>
    obtain ⟨ends, body, rest, rfl, others⟩ := List.find?_eq_some_iff_append.mp found
    have ended : stop.kind = .eof := by simpa using ends
    have bare : ∀ t ∈ body, t.kind ≠ .eof := by simpa using others
    rw [takeWhile_body bare ended, stopToken_append bare ended]
    unfold closed
    split
    · exact ⟨rest, rfl⟩
    · exact ⟨_, by rw [List.append_assoc, List.cons_append]⟩
  | none =>
    have bare : ∀ t ∈ tokens, t.kind ≠ .eof := by simpa using List.find?_eq_none.mp found
    have whole : tokens.takeWhile (·.kind != .eof) = tokens :=
      List.takeWhile_eq_self_iff.mpr (by simpa using bare)
    have unclosed : tokens.getLast?.map Token.kind ≠ some .eof := by
      intro closes
      obtain ⟨last, final, kind⟩ := Option.map_eq_some_iff.mp closes
      exact bare last (List.mem_of_getLast? final) kind
    exact ⟨[], by rw [closed, if_neg unclosed, whole, stopToken, found]⟩

theorem untilEnd_closed (tokens : List Token) :
    untilEnd (closed tokens) = tokens.takeWhile (·.kind != .eof) ++ [stopToken tokens] := by
  obtain ⟨beyond, row⟩ := closed_eq tokens
  rw [row, untilEnd_append (bare_takeWhile tokens) (stopToken_kind tokens)]

end Ends

/-- At the start, the cursor faces the tokens before the first end token. -/
theorem Cursor.start_faces (limit : Nat) (tokens : List Token) (enough : tokens.length < fuel) :
    Cursor.Faces (stopToken tokens) fuel limit (tokens.takeWhile (·.kind != .eof))
      (Cursor.start limit tokens) := by
  obtain ⟨beyond, row⟩ := closed_eq tokens
  refine ⟨stopToken_kind tokens, bare_takeWhile tokens, ⟨beyond, row⟩, ?_, Nat.zero_add limit⟩
  exact Nat.lt_of_le_of_lt (List.takeWhile_sublist _).length_le enough

/-- Parsing any row of tokens ends, and the answer is that of the tokens up to the first end token,
once the row is closed. -/
theorem parsing_total (limit fuel : Nat) (tokens : List Token)
    (enough : tokens.length + 2 * limit < fuel) :
    (∃ final, Walk.program fuel (Cursor.start limit tokens) =
        .done (parseTokens limit tokens).1 final ∧ final.errors = (parseTokens limit tokens).2) ∧
      parseTokens limit tokens = parseTokens limit (untilEnd (closed tokens)) := by
  have ended := stopToken_kind tokens
  constructor
  · have follows := Walk.follows_program ended limit fuel (by simp only [Walk.callsFor]; omega)
    have agrees := follows _ _ (Cursor.start_faces limit tokens (by omega))
    obtain ⟨program, done⟩ := Parser.lasting_declarations limit (stopToken tokens)
      (tokens.takeWhile (·.kind != .eof))
    rw [parseTokens]
    generalize Parser.declarations limit (stopToken tokens) (tokens.takeWhile (·.kind != .eof)) =
      reply at agrees done
    generalize Walk.program fuel (Cursor.start limit tokens) = ending at agrees
    cases agrees with
    | done statements used errors rest split => exact ⟨_, rfl, rfl⟩
    | unwound e used errors rest depth split => cases done
  · rw [untilEnd_closed, parseTokens_eq (bare_takeWhile tokens) ended, parseTokens]

/-- A closing brace and a word that begins no statement, at the limit, with tokens after the end. -/
theorem parsing_total_on_malformed :
    let tokens : List Token := [{ kind := .rightBrace }, { kind := .classWord }, { kind := .other (-1) },
      { kind := .minus }, { kind := .eof }, { kind := .number }]
    tokens.length + 2 * 1 < 9 ∧
      (∃ final, Walk.program 9 (Cursor.start 1 tokens) = .done (parseTokens 1 tokens).1 final ∧
        final.errors = (parseTokens 1 tokens).2) ∧
      parseTokens 1 tokens = parseTokens 1 (untilEnd (closed tokens)) := by
  intro tokens
  have enough : tokens.length + 2 * 1 < 9 := by decide
  exact ⟨enough, parsing_total 1 9 tokens enough⟩

end LoxLang
