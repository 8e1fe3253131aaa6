import LoxLang.Proofs.Scanner.Lexemes
import LoxLang.Proofs.Splitting

/-! Reformatting a program. Each lexeme of a source is cut out again wherever a blank or a comment follows
it, so writing the lexemes with other gaps between them gives the same tokens in other places. Places show
in nothing but places: the trees, the complaints and the runs stay the same. The one exception is a slash
with a comment right after it, which is a comment from the slash on. -/
namespace LoxLang

def separators : List Char := '/' :: blanks

theorem separator_ends (separator : c ∈ separators) :
    c.isDigit = false ∧ c ≠ '.' ∧ c ≠ '=' ∧ Piece.continuesWord c = false := by
  simp only [separators, blanks, List.mem_cons, List.not_mem_nil, or_false] at separator
  rcases separator with rfl | rfl | rfl | rfl | rfl <;> decide

theorem Gap.head_separator (gap : Gap text) : ∀ c ∈ text.head?, c ∈ separators := by
  intro c first
  cases gap with
  | empty => contradiction
  | blank blank =>
    obtain rfl := Option.some.inj first
    exact List.mem_cons_of_mem _ blank
  | comment =>
    obtain rfl := Option.some.inj first
    exact List.mem_cons_self

/-- What follows the token keeps it apart: nothing, a blank, or a comment unless the token is a slash. -/
def Token.EndsBefore (t : Token) (input : List Char) : Prop :=
  ∀ c ∈ input.head?, c ∈ separators ∧ (t.kind = .slash → c ≠ '/')

namespace Piece

variable {input : List Char}

theorem cutOperator_apart (apart : ∀ c ∈ input.head?, c ∈ separators) :
    cutOperator short long input = (symbol short, input) :=
  cutOperator_ends fun c first => (separator_ends (apart c first)).2.2.1

theorem cutSlash_token (made : (cutSlash rest).1.token? start = some t) :
    (cutSlash rest).1 = symbol .slash := by
  unfold cutSlash at made ⊢
  split at made
  · contradiction
  · rfl

theorem cutWord_again (inside : ∀ c ∈ text, continuesWord c = true)
    (apart : ∀ c ∈ input.head?, c ∈ separators) : cutWord (text ++ input) = (word text, input) :=
  cutWord_ends inside fun c first => (separator_ends (apart c first)).2.2.2

theorem cutNumeral_again (digits : ∀ c ∈ whole, c.isDigit = true)
    (places : ∀ c ∈ fraction, c.isDigit = true) (apart : ∀ c ∈ input.head?, c ∈ separators) :
    cutNumeral ((numeral whole fraction).chars ++ input) = (numeral whole fraction, input) := by
  apply cutNumeral_apart digits places
  intro c first
  obtain ⟨digit, point, _⟩ := separator_ends (apart c first)
  exact ⟨digit, point⟩

/-- A piece that makes a token is cut again from its own characters, if what follows them now keeps the
token apart. -/
theorem cut_again (made : (cut c rest).1.token? start = some t) (ends : t.EndsBefore input) :
    ∃ more, (cut c rest).1.chars = c :: more ∧ cut c (more ++ input) = ((cut c rest).1, input) := by
  have apart : ∀ d ∈ input.head?, d ∈ separators := fun d first => (ends d first).1
  obtain ⟨more, begins⟩ := cut_begins c rest
  refine ⟨more, begins, ?_⟩
  have cutter := cutter_cut c
  generalize cut c = f at cutter made begins ⊢
  cases cutter with
  | blank | stray => contradiction
  | symbol spelling =>
    obtain rfl : more = [] := by simpa [chars, spelling] using begins.symm
    rfl
  | operator short long =>
    unfold cutOperator at begins ⊢
    split at begins
    · obtain rfl : more = ['='] := by simpa [chars, long] using begins.symm
      rfl
    · obtain rfl : more = [] := by simpa [chars, short] using begins.symm
      exact cutOperator_apart apart
  | slash mark =>
    have plain := cutSlash_token made
    rw [plain] at made begins ⊢
    obtain rfl := (List.cons.inj (begins : ['/'] = c :: more)).2
    obtain rfl := Option.some.inj made
    exact cutSlash_apart fun d first => (ends d first).2 rfl
  | quote mark =>
    subst mark
    cases left : rest.dropWhile (· != '"') with
    | nil => simp [cutString, left, token?, meaning?] at made
    | cons d after =>
      rw [cutString_closed left] at begins ⊢
      have same : rest.takeWhile (· != '"') ++ ['"'] = more := (List.cons.inj begins).2
      rw [← same, List.append_assoc]
      apply cutString_again
      intro inside
      simpa using List.mem_takeWhile_imp inside
  | digit =>
    obtain ⟨whole, fraction, after, same, digits, places⟩ := cutNumeral_digits (c :: rest)
    simp only [same] at begins ⊢
    rw [← List.cons_append, ← begins]
    exact cutNumeral_again digits places apart
  | letter =>
    have inside : ∀ d ∈ (c :: rest).takeWhile continuesWord, continuesWord d = true :=
      fun d member => List.mem_takeWhile_imp member
    have same : (c :: rest).takeWhile continuesWord = c :: more := begins
    have again := cutWord_again inside apart
    rw [same] at again
    simpa [cutWord, same] using again

/-- Whether a piece is complained about does not depend on where it is. -/
theorem errors_anywhere {piece : Piece} (quiet : piece.errors none start last = []) (place : Position)
    (isLast : Bool) : piece.errors none place isLast = [] := by
  cases piece with
  | numeral whole fraction =>
    have small : Number.overflows whole fraction = false := by
      rw [Bool.eq_false_iff]
      intro large
      simp [errors, large] at quiet
    simp [errors, small]
  | comment body => simp [errors, readFailure]
  | stray c => simp [errors] at quiet
  | openString body => simp [errors] at quiet
  | blank | symbol | word | string => rfl

end Piece

/-- No place at all, whatever the place was. -/
def Position.nowhere (_ : Position) : Position := {}

/-- From any place on, the lexeme is scanned as this token again, if what follows it keeps it apart. -/
def Token.Rescans (t : Token) : Prop :=
  ∀ start input, t.EndsBefore input → ∃ u stop, u.move .nowhere = t.move .nowhere ∧
    Scans start (t.lexeme.toList ++ input) [u] stop input

theorem Piece.token?_anywhere {piece : Piece} (made : piece.token? start = some t) (place : Position) :
    t.lexeme.toList = piece.chars ∧
      ∃ u, piece.token? place = some u ∧ u.move .nowhere = t.move .nowhere := by
  unfold token? at made ⊢
  obtain ⟨meaning, means, rfl⟩ := Option.map_eq_some_iff.mp made
  rw [means]
  exact ⟨String.toList_ofList, _, rfl, rfl⟩

theorem Piece.rescans (made : (cut c rest).1.token? start = some t)
    (quiet : (cut c rest).1.errors none start last = []) : t.Rescans := by
  intro place input ends
  obtain ⟨more, begins, again⟩ := cut_again made ends
  obtain ⟨spelled, u, remade, same⟩ := token?_anywhere made place
  have closed : (cut c rest).1.Closed := by
    intro body found
    rw [found] at made
    contradiction
  have scans := Scans.of_cut again closed (errors_anywhere quiet place)
  rw [remade, Option.toList_some] at scans
  rw [spelled, begins]
  exact ⟨u, _, same, scans⟩

/-- Every token of a source without complaint can be scanned again. -/
theorem Scanner.body_rescans (clean : (collect none start (LoxLang.pieces source)).2 = []) :
    ∀ t ∈ body start (LoxLang.pieces source), t.Rescans := by
  fun_induction LoxLang.pieces source generalizing start with
  | case1 => simp [body]
  | case2 c rest ih =>
    have closed := (List.forall_mem_cons.mp (closed_of_clean clean)).1
    rw [collect_cons _ _ _ closed] at clean
    obtain ⟨here, later⟩ := List.append_eq_nil_iff.mp clean
    intro t member
    rcases List.mem_append.mp member with made | member
    · exact Piece.rescans (Option.mem_toList.mp made) here
    · exact ih later t member

/-- The tokens of a source without complaint are those of its pieces and the end token. -/
theorem scan_body (clean : (scan file source).2 = []) :
    (scan file source).1 =
      Scanner.body (.start file) (pieces source) ++ [endToken ((Position.start file).after source)] := by
  have closed : ∀ piece ∈ pieces source, piece.Closed := Scanner.closed_of_clean clean
  have alone := Scanner.collect_append closed (.start file) []
  rw [List.append_nil, pieces_chars] at alone
  exact congrArg Prod.fst alone

/-- Lexemes in a row, with a text before the first one and a text after each of them. -/
structure Layout where
  lead : List Char
  row : List (Token × List Char)

namespace Layout

def spread (row : List (Token × List Char)) : List Char :=
  row.flatMap fun entry => entry.1.lexeme.toList ++ entry.2

def text (layout : Layout) : List Char := layout.lead ++ spread layout.row

def tokens (layout : Layout) : List Token := layout.row.map Prod.fst

/-- Only blanks and comments stand beside the lexemes, and something stands between any two of them. -/
structure Spaced (layout : Layout) : Prop where
  lead : Gap layout.lead
  gaps : ∀ entry ∈ layout.row, Gap entry.2
  between : ∀ entry ∈ layout.row.dropLast, entry.2 ≠ []

/-- No comment begins right after a slash. -/
def Clear (layout : Layout) : Prop :=
  ∀ entry ∈ layout.row, entry.1.kind = .slash → entry.2.head? ≠ some '/'

def along (tokens : List Token) (lead : List Char) (gaps : List (List Char)) : Layout :=
  { lead, row := tokens.zip gaps }

section Along

variable {row : List Token} {margin : List Char} {others : List (List Char)}

theorem along_tokens (enough : row.length ≤ others.length) : (along row margin others).tokens = row :=
  List.map_fst_zip enough

theorem along_spaced (first : Gap margin) (each : ∀ gap ∈ others, Gap gap)
    (apart : ∀ entry ∈ (row.zip others).dropLast, entry.2 ≠ []) : (along row margin others).Spaced where
  lead := first
  gaps entry member := each entry.2 (List.of_mem_zip member).2
  between := apart

end Along

theorem spread_ends {t : Token} {gap : List Char} {row : List (Token × List Char)} (filled : Gap gap)
    (clear : t.kind = .slash → gap.head? ≠ some '/')
    (between : row ≠ [] → gap ≠ []) : t.EndsBefore (gap ++ spread row) := by
  intro c first
  cases gap with
  | nil =>
    have last : row = [] := by
      by_contra more
      exact between more rfl
    subst last
    contradiction
  | cons d gap =>
    obtain rfl : d = c := Option.some.inj first
    refine ⟨filled.head_separator d rfl, fun slash same => ?_⟩
    exact clear slash (congrArg some same)

theorem spread_scans {row : List (Token × List Char)} (gaps : ∀ entry ∈ row, Gap entry.2)
    (between : ∀ entry ∈ row.dropLast, entry.2 ≠ [])
    (clear : ∀ entry ∈ row, entry.1.kind = .slash → entry.2.head? ≠ some '/')
    (each : ∀ entry ∈ row, entry.1.Rescans) (start : Position) :
    ∃ tokens stop, tokens.map (Token.move .nowhere) = (row.map Prod.fst).map (Token.move .nowhere) ∧
      Scans start (spread row) tokens stop [] := by
  induction row generalizing start with
  | nil => exact ⟨[], start, rfl, .refl start []⟩
  | cons entry row ih =>
    obtain ⟨t, gap⟩ := entry
    obtain ⟨gap_here, gaps⟩ := List.forall_mem_cons.mp gaps
    obtain ⟨clear_here, clear⟩ := List.forall_mem_cons.mp clear
    obtain ⟨rescans, each⟩ := List.forall_mem_cons.mp each
    have apart : row ≠ [] → gap ≠ [] := by
      intro more
      rw [List.dropLast_cons_of_ne_nil more] at between
      exact between (t, gap) List.mem_cons_self
    have later : ∀ entry ∈ row.dropLast, entry.2 ≠ [] := by
      intro entry member
      have more : row ≠ [] := by
        rintro rfl
        contradiction
      rw [List.dropLast_cons_of_ne_nil more] at between
      exact between entry (List.mem_cons_of_mem _ member)
    obtain ⟨u, second, same, here⟩ := rescans start _ (spread_ends gap_here clear_here apart)
    obtain ⟨third, skipped⟩ := gap_here.scans second (spread row)
    obtain ⟨tokens, stop, others, rest⟩ := ih gaps later clear each third
    refine ⟨u :: tokens, stop, ?_, ?_⟩
    · rw [List.map_cons, List.map_cons, List.map_cons, same, others]
    · have whole := here.append (skipped.append rest)
      simpa [spread] using whole

end Layout

section Reformatted

variable {file : String} {source text : List Char} {layout : Layout}
  (clean : (scan file source).2 = []) (lexemes : layout.tokens = (scan file source).1.dropLast)
  (spaced : layout.Spaced) (clear : layout.Clear) (laid : text = layout.text)
include clean lexemes spaced clear laid

/-- The tokens of the reformatted source are those of the source, up to their places. -/
theorem scan_reformatted (other : String) :
    ∃ body again stop place, (scan file source).1 = body ++ [endToken stop] ∧
      (∀ t ∈ body, t.kind ≠ .eof) ∧ scan other text = (again ++ [endToken place], []) ∧
      again.map (Token.move .nowhere) = body.map (Token.move .nowhere) := by
  have scanned := scan_body clean
  have same : layout.tokens = Scanner.body (.start file) (pieces source) := by
    rw [lexemes, scanned, List.dropLast_concat]
  have each : ∀ entry ∈ layout.row, entry.1.Rescans := by
    intro entry member
    have among : entry.1 ∈ Scanner.body (.start file) (pieces source) :=
      same ▸ List.mem_map_of_mem member
    exact Scanner.body_rescans clean entry.1 among
  obtain ⟨mid, lead⟩ := spaced.lead.scans (.start other) (Layout.spread layout.row)
  obtain ⟨again, place, moved, row⟩ :=
    Layout.spread_scans spaced.gaps spaced.between clear each mid
  have whole := (lead.append row).scan_eq
  rw [← Layout.text, ← laid] at whole
  refine ⟨_, again, _, place, scanned, Scanner.body_kind pieces_nonempty, whole, ?_⟩
  rw [moved, ← same]
  rfl

/-- The complaints agree too, up to their places. -/
theorem parse_reformatted (other : String) (limit : Nat) :
    (parse limit other text).move .nowhere = (parse limit file source).move .nowhere := by
  obtain ⟨body, again, stop, place, scanned, bare, rescanned, moved⟩ :=
    scan_reformatted clean lexemes spaced clear laid other
  have bare_again : ∀ t ∈ again, t.kind ≠ .eof := by
    intro t member
    have among : t.move .nowhere ∈ body.map (Token.move .nowhere) :=
      moved ▸ List.mem_map_of_mem member
    exact moved_bare .nowhere bare (t.move .nowhere) among
  have trees :
      ((parseTokens limit (again ++ [endToken place])).1.map (Stmt.move .nowhere),
        (parseTokens limit (again ++ [endToken place])).2.map (SyntaxError.move .nowhere)) =
      ((parseTokens limit (body ++ [endToken stop])).1.map (Stmt.move .nowhere),
        (parseTokens limit (body ++ [endToken stop])).2.map (SyntaxError.move .nowhere)) := by
    rw [← parseTokens_move .nowhere bare_again rfl, ← parseTokens_move .nowhere bare rfl, moved]
    rfl
  obtain ⟨programs, complaints⟩ := Prod.mk.inj trees
  simp only [parse, Parsed.move, rescanned, scanned, clean, programs, complaints]

end Reformatted

/-- A source without complaint and the same lexemes with other blanks and comments between them, none of
which begins right after a slash, are one program: they have the same tokens, the same trees and complaints
and the same runs on every machine, up to the places of tokens. -/
theorem reformat_keeps_program {file other : String} {source text : List UInt8} {layout : Layout}
    (clean : (scan file (Text.decodeUtf8 source)).2 = [])
    (lexemes : layout.tokens = (scan file (Text.decodeUtf8 source)).1.dropLast)
    (spaced : layout.Spaced) (clear : layout.Clear) (laid : Text.decodeUtf8 text = layout.text)
    (limit rounds : Nat) (m : Machine) :
    let before := parse limit file (Text.decodeUtf8 source)
    let after := parse limit other (Text.decodeUtf8 text)
    (scan other (Text.decodeUtf8 text)).2 = [] ∧
    (scan other (Text.decodeUtf8 text)).1.map (fun t => (t.kind, t.lexeme, t.literal)) =
      (scan file (Text.decodeUtf8 source)).1.map (fun t => (t.kind, t.lexeme, t.literal)) ∧
    after.move .nowhere = before.move .nowhere ∧
    after.diagnostics.map (Diagnostic.move .nowhere) =
      before.diagnostics.map (Diagnostic.move .nowhere) ∧
    Machine.moved .nowhere (runProgram rounds after.program m) =
      Machine.moved .nowhere (runProgram rounds before.program m) := by
  intro before after
  obtain ⟨body, again, stop, place, scanned, _, rescanned, moved⟩ :=
    scan_reformatted clean lexemes spaced clear laid other
  have parsed : after.move .nowhere = before.move .nowhere :=
    parse_reformatted clean lexemes spaced clear laid other limit
  refine ⟨by rw [rescanned], ?_, parsed, ?_, ?_⟩
  · have same := congrArg (List.map fun t => (t.kind, t.lexeme, t.literal)) moved
    rw [List.map_map, List.map_map] at same
    rw [rescanned, scanned, List.map_append, List.map_append]
    exact congrArg (· ++ [(TokenKind.eof, "", Value.nil)]) same
  · rw [← Parsed.diagnostics_move, ← Parsed.diagnostics_move, parsed]
  · have programs : after.program.map (Stmt.move .nowhere) = before.program.map (Stmt.move .nowhere) :=
      congrArg Parsed.program parsed
    rw [← moves_runProgram parse_proper rounds m, ← moves_runProgram parse_proper rounds m, programs]

/-- A division that fails, with comments after most of its lexemes, one of which is a string that looks like
a comment. -/
theorem reformat_keeps_program_with_comments :
    ∃ layout : Layout,
      let source := "print -1/\"//\";".toUTF8.toList
      let text := "\tprint//\n-// a\n1 / \"//\"//\r\n;//\n".toUTF8.toList
      let before := parse 9 "" (Text.decodeUtf8 source)
      let after := parse 9 "" (Text.decodeUtf8 text)
      layout.Spaced ∧ layout.Clear ∧
      (scan "" (Text.decodeUtf8 source)).2 = [] ∧
      layout.tokens = (scan "" (Text.decodeUtf8 source)).1.dropLast ∧
      Text.decodeUtf8 text = layout.text ∧
      (scan "" (Text.decodeUtf8 text)).2 = [] ∧
      (scan "" (Text.decodeUtf8 text)).1.map (fun t => (t.kind, t.lexeme, t.literal)) =
        (scan "" (Text.decodeUtf8 source)).1.map (fun t => (t.kind, t.lexeme, t.literal)) ∧
      after.move .nowhere = before.move .nowhere ∧
      after.diagnostics.map (Diagnostic.move .nowhere) =
        before.diagnostics.map (Diagnostic.move .nowhere) ∧
      Machine.moved .nowhere (runProgram 9 after.program {}) =
        Machine.moved .nowhere (runProgram 9 before.program {}) := by
  have space : Gap [' '] := .blank (by decide) .empty
  have tab : Gap ['\t'] := .blank (by decide) .empty
  have bare : Gap ('/' :: '/' :: ([] ++ ['\n'])) := .comment List.not_mem_nil .empty
  have letter : Gap ('/' :: '/' :: ([' ', 'a'] ++ ['\n'])) := .comment (by decide) .empty
  have carriage : Gap ('/' :: '/' :: (['\r'] ++ ['\n'])) := .comment (by decide) .empty
  let row := (scan "" (Text.decodeUtf8 "print -1/\"//\";".toUTF8.toList)).1.dropLast
  let gaps := ["//\n".toList, "// a\n".toList, [' '], [' '], "//\r\n".toList, "//\n".toList]
  have clean := List.isEmpty_iff.mp (show (scan "" (Text.decodeUtf8 "print -1/\"//\";".toUTF8.toList)).2.isEmpty
    by decide +kernel)
  have spaced : (Layout.along row ['\t'] gaps).Spaced := by
    apply Layout.along_spaced tab
    · simpa [gaps] using ⟨bare, letter, space, carriage, bare⟩
    · decide +kernel
  have clear : (Layout.along row ['\t'] gaps).Clear := by
    unfold Layout.Clear
    decide +kernel
  have lexemes : (Layout.along row ['\t'] gaps).tokens = row := Layout.along_tokens (by decide +kernel)
  refine ⟨_, spaced, clear, clean, lexemes, by decide +kernel, ?_⟩
  exact reformat_keeps_program clean lexemes spaced clear (by decide +kernel) 9 9 {}

/-- Right after a slash a comment takes the slash with it. -/
theorem reformat_comment_after_slash :
    let source := Text.decodeUtf8 "1/2;".toUTF8.toList
    let text := Text.decodeUtf8 "1 ///\n2 ;".toUTF8.toList
    ∃ layout : Layout, layout.Spaced ∧ layout.tokens = (scan "" source).1.dropLast ∧
      (scan "" source).2 = [] ∧ text = layout.text ∧
      (scan "" text).1.map (fun t => (t.kind, t.lexeme, t.literal)) ≠
        (scan "" source).1.map (fun t => (t.kind, t.lexeme, t.literal)) := by
  intro source text
  have space : Gap [' '] := .blank (by decide) .empty
  have comment : Gap ['/', '/', '\n'] := .comment (List.not_mem_nil) .empty
  refine ⟨.along (scan "" source).1.dropLast [] [[' '], ['/', '/', '\n'], [' '], []],
    Layout.along_spaced .empty ?_ ?_, Layout.along_tokens ?_, ?_, ?_, ?_⟩
  · simp [space, comment, Gap.empty]
  · decide +kernel
  · decide +kernel
  · exact List.isEmpty_iff.mp (by decide +kernel)
  · decide +kernel
  · intro same
    have kinds := congrArg (List.map Prod.fst) same
    revert kinds
    decide +kernel

end LoxLang
