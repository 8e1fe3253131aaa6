import Mathlib.Data.List.Forall2
import LoxLang.Yaml.Node.Read
import LoxLang.Proofs.Yaml.Cutting

/-! A mapping of scalars that is written line by line is read as its entries, in their order. -/
namespace LoxLang.Yaml

/-- The node of a scalar without a tag. -/
def Node.IsScalar (node : Node) (text : List Char) (plain : Bool) : Prop :=
  ∃ line, node = .scalar { text, plain, line }

def ScalarEntry.ReadAs (e : ScalarEntry) (nodes : Node × Node) : Prop :=
  nodes.1.IsScalar e.key true ∧ nodes.2.IsScalar e.text e.plain

open Reader

variable {r : Reading} {rest : List Token}

theorem run_readNode_scalar {token : Token} (handles : List (String × String)) (block dashes : Bool)
    (fuel : Nat) (tokens : r.tokens = token :: rest) (lexeme : token.lexeme = .scalar text plain) :
    (readNode handles block dashes (fuel + 1)).run r =
      some (.scalar { text, plain, line := token.line }, { r with tokens := rest }) := by
  simp [readNode, readProperties, peek, skip, keep, tokens, lexeme]

theorem run_readBlockEntries_end {token : Token} (handles : List (String × String)) (fuel : Nat)
    (tokens : r.tokens = token :: rest) (lexeme : token.lexeme = .blockEnd) :
    (readBlockEntries handles (fuel + 1)).run r = some ([], { r with tokens := rest }) := by
  simp [readBlockEntries, peek, skip, tokens, lexeme]

/-- An entry takes four tokens, and the rest of the mapping follows. -/
theorem run_readBlockEntries_cons {mark key colon value : Token} {e : ScalarEntry}
    (handles : List (String × String)) (fuel : Nat) (tokens : r.tokens = mark :: key :: colon :: value :: rest)
    (markLexeme : mark.lexeme = .key) (keyLexeme : key.lexeme = .scalar e.key true)
    (colonLexeme : colon.lexeme = .value) (valueLexeme : value.lexeme = .scalar e.text e.plain) :
    ∃ nodes, e.ReadAs nodes ∧ (readBlockEntries handles (fuel + 2)).run r =
      ((readBlockEntries handles (fuel + 1)).run { r with tokens := rest }).map fun (entries, r) =>
        (nodes :: entries, r) := by
  refine ⟨(.scalar { text := e.key, line := key.line },
    .scalar { text := e.text, plain := e.plain, line := value.line }), ⟨⟨_, rfl⟩, ⟨_, rfl⟩⟩, ?_⟩
  have first :
      (readNode handles true true (fuel + 1)).run { r with tokens := key :: colon :: value :: rest } = _ :=
    run_readNode_scalar handles true true fuel rfl keyLexeme
  have second : (readNode handles true true (fuel + 1)).run { r with tokens := value :: rest } = _ :=
    run_readNode_scalar handles true true fuel rfl valueLexeme
  rw [readBlockEntries]
  simp [peek, skip, tokens, markLexeme, keyLexeme, first, colonLexeme, valueLexeme, second]

theorem run_readBlockEntries {entries : List ScalarEntry} {lexemes : List Lexeme}
    (handles : List (String × String))
    (here : r.tokens.map Token.lexeme = entries.flatMap ScalarEntry.lexemes ++ .blockEnd :: lexemes)
    (enough : entries.length < fuel) :
    ∃ nodes rest, (readBlockEntries handles fuel).run r = some (nodes, { r with tokens := rest }) ∧
      List.Forall₂ ScalarEntry.ReadAs entries nodes ∧ rest.map Token.lexeme = lexemes := by
  induction entries generalizing r fuel with
  | nil =>
    obtain ⟨fuel, rfl⟩ := Nat.exists_eq_succ_of_ne_zero (Nat.ne_zero_of_lt enough)
    obtain ⟨token, rest, tokens, lexeme, rfl⟩ := List.map_eq_cons_iff.mp here
    exact ⟨[], rest, run_readBlockEntries_end handles fuel tokens lexeme, .nil, rfl⟩
  | cons e entries ih =>
    rw [List.length_cons] at enough
    obtain ⟨fuel, rfl⟩ := Nat.exists_eq_add_of_le' (show 2 ≤ fuel by omega)
    simp only [List.flatMap_cons, ScalarEntry.lexemes, List.cons_append, List.nil_append] at here
    obtain ⟨mark, _, tokens, markLexeme, here⟩ := List.map_eq_cons_iff.mp here
    obtain ⟨key, _, rfl, keyLexeme, here⟩ := List.map_eq_cons_iff.mp here
    obtain ⟨colon, _, rfl, colonLexeme, here⟩ := List.map_eq_cons_iff.mp here
    obtain ⟨value, later, rfl, valueLexeme, here⟩ := List.map_eq_cons_iff.mp here
    obtain ⟨first, firstRead, step⟩ :=
      run_readBlockEntries_cons handles fuel tokens markLexeme keyLexeme colonLexeme valueLexeme
    obtain ⟨nodes, rest, run, read, left⟩ :=
      ih (r := { r with tokens := later }) here (show entries.length < fuel + 1 by omega)
    refine ⟨first :: nodes, rest, ?_, .cons firstRead read, left⟩
    rw [step, run]
    rfl

/-- The document of a mapping has no anchors. -/
theorem run_readDocument {entries : List ScalarEntry} (here : r.tokens.map Token.lexeme =
      .blockMappingStart :: (entries.flatMap ScalarEntry.lexemes ++ [.blockEnd, .streamEnd]))
    (enough : entries.length < fuel) :
    ∃ nodes line rest, (readDocument (fuel + 1)).run r =
        some (some { root := .mapping nodes line, anchored := r.anchored, anchors := r.anchors },
          { r with tokens := rest }) ∧
      List.Forall₂ ScalarEntry.ReadAs entries nodes := by
  obtain ⟨start, later, tokens, startLexeme, here⟩ := List.map_eq_cons_iff.mp here
  obtain ⟨nodes, rest, run, read, left⟩ :=
    run_readBlockEntries (r := { r with tokens := later }) commonHandles here enough
  obtain ⟨last, after, rfl, -⟩ := List.map_eq_cons_iff.mp left
  refine ⟨nodes, start.line, last :: after, ?_, read⟩
  simp [readDocument, readDocument.finish, readNode, readProperties, peek, skip, keep, tokens, startLexeme, run]

theorem ScalarEntry.printable_lines (entries : List ScalarEntry) :
    ∀ c ∈ entries.flatMap line, Printable c ∨ c = '\n' := by
  intro c member
  obtain ⟨e, -, inside⟩ := List.mem_flatMap.mp member
  simp only [line, List.mem_append, List.mem_cons] at inside
  rcases inside with own | rfl | rfl | value
  · exact .inl (e.word.chars c own).printable
  · exact .inl (by decide)
  · exact .inl (by decide)
  · exact e.form.printable e.printable c value

theorem read?_entries {entries : List ScalarEntry} (nonempty : entries ≠ []) :
    ∃ nodes line, read? (entries.flatMap ScalarEntry.line) = some (some { root := .mapping nodes line }) ∧
      List.Forall₂ ScalarEntry.ReadAs entries nodes := by
  have printable := ScalarEntry.printable_lines entries
  have unmarked : withoutMark (entries.flatMap ScalarEntry.line) = entries.flatMap ScalarEntry.line := by
    unfold withoutMark
    split
    · rename_i rest same
      have first := printable '\ufeff' (by simp [same])
      exact absurd first (by decide)
    · rfl
  have readable : (entries.flatMap ScalarEntry.line).all isReadable = true := by
    refine List.all_eq_true.mpr fun c member => ?_
    rcases printable c member with inside | rfl
    · exact inside.isReadable
    · rfl
  have lexed := map_tokens_entries nonempty
  have enough : entries.length < 4 * (tokens (entries.flatMap ScalarEntry.line)).length + 3 := by
    have count := congrArg List.length lexed
    simp only [List.length_map, List.length_cons, List.length_append, ScalarEntry.length_lexemes] at count
    omega
  obtain ⟨nodes, line, rest, run, read⟩ := run_readDocument (r := { tokens := tokens _ }) lexed enough
  refine ⟨nodes, line, ?_, read⟩
  rw [read?, unmarked, if_pos readable]
  exact congrArg (Option.map Prod.fst) run

end LoxLang.Yaml
