import LoxLang.Proofs.Scanner.Tokens
import LoxLang.Text.Utf8
import Mathlib.Data.List.Induction
import Mathlib.Data.List.TakeWhile

/-! The source is laid out in tiles: the lexemes of its tokens, and between them blanks, comments and
characters that begin no token. Only a string that is never closed lies outside. The tiles tell where each
token lies, and what is complained about. -/
namespace LoxLang

namespace Position

/-- The place up to which the characters were read: the line, counted from one, and the number of
characters that were read of it. -/
def last (file : String) (read : List Char) : Position :=
  { line := 1 + read.count '\n', column := (read.reverse.takeWhile (· != '\n')).length, file }

/-- The place of a character that follows on the same line. -/
def next (file : String) (before : List Char) : Position :=
  { last file before with column := (last file before).column + 1 }

theorem after_start (file : String) (read : List Char) : (start file).after read = last file read := by
  induction read using List.reverseRecOn with
  | nil => rfl
  | append_singleton read c ih =>
    rw [after_append, ih]
    by_cases newline : c = '\n'
    · subst newline
      simp [after, advance, last]
      omega
    · simp [after, advance, last, newline]

theorem last_after (file : String) (before text : List Char) :
    (last file before).after text = last file (before ++ text) := by
  rw [← after_start, ← after_start, after_append]

theorem last_snoc (file : String) (before : List Char) (inline : c ≠ '\n') :
    last file (before ++ [c]) = next file before := by
  rw [← last_after]
  simp [after, advance, next, inline]

end Position

def startsToken (c : Char) : Bool :=
  TokenKind.symbols.any (fun entry => entry.2.head? == some c) || c == '"' || c.isDigit ||
    Text.startsWord c

def blanks : List Char := [' ', '\r', '\t', '\n']

def Token.overflows (t : Token) : Bool :=
  Number.overflows (t.lexeme.toList.takeWhile Char.isDigit)
    ((t.lexeme.toList.dropWhile Char.isDigit).drop 1)

/-- A row of characters: the lexeme of a token, or a part of what lies between the tokens. -/
inductive Tile where
  | blank (c : Char)
  | comment (body : List Char)
  | stray (c : Char)
  | token (t : Token)

namespace Tile

def chars : Tile → List Char
  | blank c | stray c => [c]
  | comment body => '/' :: '/' :: body
  | token t => t.lexeme.toList

def token? : Tile → Option Token
  | token t => some t
  | _ => none

/-- The tile may lie between the characters before it and those after it. A comment goes on to the end of
the line; a token lies where its first character does. -/
def Lies (file : String) (before after : List Char) : Tile → Prop
  | blank c => c ∈ blanks
  | comment body => '\n' ∉ body ∧ ∀ c ∈ after.head?, c = '\n'
  | stray c => c ∉ blanks ∧ startsToken c = false
  | token t => t.kind ≠ .eof ∧ t.lexeme ≠ "" ∧ t.position = .next file before

def complaint (file : String) (before : List Char) : Tile → List Diagnostic
  | stray c => [.lexical (.next file before) s!"Unexpected character '{c}'."]
  | token t =>
    if t.kind = .number ∧ t.overflows then
      [.lexical t.position s!"Invalid number '{t.lexeme}'."]
    else []
  | _ => []

def complaints (file : String) : (before : List Char) → List Tile → List Diagnostic
  | _, [] => []
  | before, tile :: tiles => tile.complaint file before ++ complaints file (before ++ tile.chars) tiles

/-- Each tile may lie where it does. -/
def Row (file : String) (rest : List Char) : (before : List Char) → List Tile → Prop
  | _, [] => True
  | before, tile :: tiles =>
    tile.Lies file before (tiles.flatMap chars ++ rest) ∧ Row file rest (before ++ tile.chars) tiles

theorem Row.lies (row : Row file rest before tiles) (split : tiles = earlier ++ tile :: later) :
    tile.Lies file (before ++ earlier.flatMap chars) (later.flatMap chars ++ rest) := by
  subst split
  induction earlier generalizing before with
  | nil => simpa using row.1
  | cons first earlier ih => simpa using ih row.2

end Tile

namespace Piece

theorem startsToken_unmarked (unmarked : c ∉ marks) (digit : c.isDigit = false)
    (word : Text.startsWord c = false) : c ∉ blanks ∧ startsToken c = false := by
  simp only [marks, List.mem_cons, not_or] at unmarked
  simp [blanks, startsToken, TokenKind.symbols, digit, word]
  grind

/-- The tile of the piece is laid where the piece is cut: it spells the same, and it gives the same token
and the same complaints. -/
structure Laid (file : String) (before after : List Char) (piece : Piece) (tile : Tile) : Prop where
  chars_eq : tile.chars = piece.chars
  lies : tile.Lies file before after
  token_eq : tile.token? = piece.token? (.last file before)
  complaint_eq : ∀ isLast, tile.complaint file before =
    (piece.errors none (.last file before) isLast).map LexError.diagnostic

theorem place_last {piece : Piece} (begins : piece.chars = c :: more) (inline : c ≠ '\n') :
    piece.place (.last file before) = .next file before := by
  rw [place, begins, Position.last_after]
  exact Position.last_snoc file before inline

section Laid

variable {file : String} {before after : List Char} {piece : Piece} {c : Char} {more : List Char}

theorem laid_token (begins : piece.chars = c :: more) (inline : c ≠ '\n')
    (made : piece.token? (.last file before) = some t)
    (said : ∀ isLast, (Tile.token t).complaint file before =
      (piece.errors none (.last file before) isLast).map LexError.diagnostic) :
    piece.Laid file before after (.token t) := by
  have nonempty : piece.chars ≠ [] := by simp [begins]
  have kind := token_kind nonempty made
  unfold token? at made
  obtain ⟨meaning, _, rfl⟩ := Option.map_eq_some_iff.mp made
  have spelled : (String.ofList piece.chars).toList = piece.chars := String.toList_ofList
  have named : String.ofList piece.chars ≠ "" := by
    intro blank
    rw [blank] at spelled
    exact nonempty spelled.symm
  exact ⟨spelled, ⟨kind, named, place_last begins inline⟩, made.symm, said⟩

/-- A token other than a number is never complained about. -/
theorem laid_plain (begins : piece.chars = c :: more) (inline : c ≠ '\n')
    (meaning : piece.meaning? = some (kind, literal)) (plain : kind ≠ .number)
    (quiet : ∀ start isLast, piece.errors none start isLast = []) :
    ∃ tile, piece.Laid file before after tile := by
  have made : piece.token? (.last file before) = some
      { kind, literal, lexeme := String.ofList piece.chars, position := piece.place (.last file before) } := by
    rw [token?, meaning]
    rfl
  refine ⟨_, laid_token begins inline made fun isLast => ?_⟩
  rw [quiet]
  exact if_neg fun number => plain number.1

theorem laid_symbol (spelling : kind.spelling = c :: more) (inline : c ≠ '\n') :
    ∃ tile, (symbol kind).Laid file before after tile := by
  refine laid_plain spelling inline rfl ?_ fun _ _ => rfl
  rintro rfl
  have none : TokenKind.number.spelling = [] := rfl
  rw [none] at spelling
  contradiction

theorem cutNumeral_digits (input : List Char) :
    ∃ whole fraction rest, cutNumeral input = (numeral whole fraction, rest) ∧
      (∀ c ∈ whole, c.isDigit = true) ∧ ∀ c ∈ fraction, c.isDigit = true := by
  have digits {input : List Char} : ∀ c ∈ input.takeWhile Char.isDigit, c.isDigit = true :=
    fun c member => List.mem_takeWhile_imp member
  unfold cutNumeral
  dsimp only
  split
  · rename_i digit rest _
    split
    · exact ⟨_, _, _, rfl, digits, List.forall_mem_cons.mpr ⟨‹_›, digits⟩⟩
    · exact ⟨_, _, _, rfl, digits, by simp⟩
  · exact ⟨_, _, _, rfl, digits, by simp⟩

/-- The digits before and after the point can be read off the lexeme. -/
theorem numeral_parts {whole : List Char} (digits : ∀ c ∈ whole, c.isDigit = true)
    (fraction : List Char) :
    (numeral whole fraction).chars.takeWhile Char.isDigit = whole ∧
      ((numeral whole fraction).chars.dropWhile Char.isDigit).drop 1 = fraction := by
  cases fraction with
  | nil =>
    have all : whole.dropWhile Char.isDigit = [] := List.dropWhile_eq_nil_iff.mpr digits
    have same : whole.takeWhile Char.isDigit = whole := List.takeWhile_eq_self_iff.mpr digits
    simp [chars, all, same]
  | cons d ds =>
    have point : Char.isDigit '.' = false := rfl
    rw [chars, List.takeWhile_append_of_pos digits, List.dropWhile_append_of_pos digits]
    · simp [point]
    · simp

theorem laid_numeral (digits : ∀ c ∈ whole, c.isDigit = true)
    (begins : (numeral whole fraction).chars = c :: more) (inline : c ≠ '\n') :
    ∃ tile, (numeral whole fraction).Laid file before after tile := by
  obtain ⟨before_point, after_point⟩ := numeral_parts digits fraction
  refine ⟨_, laid_token begins inline rfl fun isLast => ?_⟩
  simp only [Tile.complaint, Token.overflows, String.toList_ofList, before_point, after_point, errors]
  by_cases large : Number.overflows whole fraction
  · simp only [large, and_self, if_true]
    rfl
  · rw [if_neg fun both => large both.2, if_neg large]
    rfl

end Laid

theorem cut_begins (c : Char) (rest : List Char) : ∃ more, (cut c rest).1.chars = c :: more := by
  obtain ⟨first, more, begins⟩ := List.exists_cons_of_ne_nil (cut_nonempty c rest)
  have whole := cut_chars c rest
  rw [begins, List.cons_append] at whole
  exact ⟨more, by rw [begins, (List.cons.inj whole).1]⟩

/-- Every piece but an open string is a tile. -/
theorem cut_laid (file : String) (before : List Char) (c : Char) (rest : List Char)
    (closed : (cut c rest).1.Closed) :
    ∃ tile, (cut c rest).1.Laid file before (cut c rest).2 tile := by
  by_cases inline : c = '\n'
  · subst inline
    exact ⟨.blank '\n', rfl, by simp [Tile.Lies, blanks], rfl, fun _ => rfl⟩
  have cutter := cutter_cut c
  obtain ⟨more, begins⟩ := cut_begins c rest
  generalize cut c = f at cutter closed begins ⊢
  cases cutter with
  | blank blank =>
    refine ⟨.blank c, rfl, ?_, rfl, fun _ => rfl⟩
    simpa [Tile.Lies, blanks, or_left_comm] using blank
  | symbol spelling => exact laid_symbol spelling inline
  | operator short long =>
    unfold cutOperator
    split
    · exact laid_symbol long inline
    · exact laid_symbol short inline
  | slash mark =>
    unfold cutSlash
    split
    · rename_i rest
      refine ⟨.comment _, rfl, ⟨?_, ?_⟩, rfl, fun isLast => ?_⟩
      · intro inside
        simpa using List.mem_takeWhile_imp inside
      · intro d head
        have stops := List.head?_dropWhile_not (· != '\n') rest
        rw [Option.mem_def.mp head] at stops
        simpa using stops
      · cases isLast <;> rfl
    · exact laid_symbol rfl (by decide)
  | quote mark =>
    cases left : rest.dropWhile (· != '"') with
    | nil => exact absurd (by simp [cutString, left]) (closed rest)
    | cons d after =>
      rw [cutString_closed left] at begins ⊢
      exact laid_plain begins inline rfl (by simp) fun _ _ => rfl
  | digit =>
    obtain ⟨whole, fraction, after, same, digits, _⟩ := cutNumeral_digits (c :: rest)
    simp only [same] at begins ⊢
    exact laid_numeral digits begins inline
  | letter => exact laid_plain begins inline rfl (TokenKind.keyword_ne _ (by decide)) fun _ _ => rfl
  | stray unmarked digit word =>
    refine ⟨.stray c, rfl, startsToken_unmarked unmarked digit word, rfl, fun _ => ?_⟩
    simp only [Tile.complaint, errors, place_last begins inline]
    rfl

theorem cut_unclosed (unclosed : '"' ∉ body) : cut '"' body = (openString body, []) := by
  have left : body.dropWhile (· != '"') = [] := by
    refine List.dropWhile_eq_nil_iff.mpr fun c inside => ?_
    simpa using fun same : c = '"' => unclosed (same ▸ inside)
  change cutString body = _
  rw [cutString, left]

/-- A piece that is an open string reaches from its quote to the end of the source. -/
theorem cut_open (found : (cut c rest).1 = openString body) :
    c = '"' ∧ body = rest ∧ (cut c rest).2 = [] ∧ '"' ∉ rest := by
  have cutter := cutter_cut c
  generalize cut c = f at cutter found ⊢
  cases cutter with
  | quote mark =>
    cases left : rest.dropWhile (· != '"') with
    | nil =>
      simp only [cutString, left, openString.injEq] at found ⊢
      have none := List.dropWhile_eq_nil_iff.mp left
      refine ⟨mark, found.symm, trivial, fun inside => ?_⟩
      simpa using none '"' inside
    | cons d after =>
      rw [cutString_closed left] at found
      contradiction
  | blank | symbol | stray | letter => contradiction
  | operator =>
    unfold cutOperator at found
    split at found <;> contradiction
  | slash =>
    unfold cutSlash at found
    split at found <;> contradiction
  | digit =>
    obtain ⟨whole, fraction, after, same, _⟩ := cutNumeral_digits (c :: rest)
    simp [same] at found

end Piece

/-- The tokens and complaints of what comes after `before` are those of the tiles in it. -/
structure Tiled (file : String) (before source : List Char) (tiles : List Tile)
    (rest : List Char) : Prop where
  whole : source = tiles.flatMap Tile.chars ++ rest
  row : Tile.Row file rest before tiles
  unread : rest = [] ∨ ∃ body, rest = '"' :: body ∧ '"' ∉ body
  tokens : (Scanner.collect none (.last file before) (pieces source)).1 =
    tiles.filterMap Tile.token? ++ [endToken (.last file (before ++ source))]
  complaints : (Scanner.collect none (.last file before) (pieces source)).2.map LexError.diagnostic =
    Tile.complaints file before tiles ++
      if rest = [] then [] else [.lexical (.last file (before ++ source)) "Unterminated string."]

theorem tiled_nil (file : String) (before : List Char) : Tiled file before [] [] [] where
  whole := rfl
  row := trivial
  unread := .inl rfl
  tokens := by
    rw [pieces, List.append_nil]
    rfl
  complaints := by
    rw [pieces]
    rfl

theorem tiled_open (file : String) (before : List Char) (unclosed : '"' ∉ body) :
    Tiled file before ('"' :: body) [] ('"' :: body) := by
  have ends : pieces ('"' :: body) = [.openString body] := by rw [pieces, Piece.cut_unclosed unclosed, pieces]
  refine ⟨rfl, trivial, .inr ⟨body, rfl, unclosed⟩, ?_, ?_⟩
  · rw [ends, Scanner.collect_openString, Position.last_after]
    rfl
  · rw [ends, Scanner.collect_openString, Piece.errors, Position.last_after, if_neg (by simp)]
    rfl

/-- Laying one more tile in front moves the place where the others begin by its text. -/
theorem Tiled.cons (tiled : Tiled file (before ++ tile.chars) after tiles rest)
    (laid : piece.Laid file before after tile) (closed : piece.Closed)
    (cut : pieces source = piece :: pieces after) (joined : piece.chars ++ after = source) :
    Tiled file before source (tile :: tiles) rest := by
  have ends : before ++ tile.chars ++ after = before ++ source := by
    rw [List.append_assoc, laid.chars_eq, joined]
  have below := Scanner.collect_cons none (.last file before) (pieces after) closed
  rw [Position.last_after, ← laid.chars_eq] at below
  refine ⟨?_, ⟨?_, tiled.row⟩, tiled.unread, ?_, ?_⟩
  · rw [List.flatMap_cons, List.append_assoc, ← tiled.whole, laid.chars_eq, joined]
  · rw [← tiled.whole]
    exact laid.lies
  · rw [cut, below, tiled.tokens, ends, ← laid.token_eq, List.filterMap_cons]
    cases tile.token? <;> rfl
  · rw [cut, below, List.map_append, ← laid.complaint_eq, tiled.complaints, ends, Tile.complaints,
      List.append_assoc]

theorem tiled (file : String) (before source : List Char) :
    ∃ tiles rest, Tiled file before source tiles rest := by
  fun_induction pieces source generalizing before with
  | case1 => exact ⟨[], [], tiled_nil file before⟩
  | case2 c rest ih =>
    obtain closed | ⟨body, found⟩ := Scanner.closed_or_open (Piece.cut c rest).1
    · obtain ⟨tile, laid⟩ := Piece.cut_laid file before c rest closed
      obtain ⟨tiles, unread, below⟩ := ih (before ++ tile.chars)
      exact ⟨tile :: tiles, unread, below.cons laid closed (by rw [pieces]) (Piece.cut_chars c rest)⟩
    · obtain ⟨rfl, rfl, _, unclosed⟩ := Piece.cut_open found
      exact ⟨[], _, tiled_open file before unclosed⟩

/-- Scanning lays the source out in tiles. Put together, with an open string at the end if there is one,
they are the source, and their tokens are those that scanning gives, before the one end token, which lies
where reading stopped. The complaints are those about the tiles, in order, and about the open string. -/
theorem scan_tiles (file : String) (bytes : List UInt8) :
    ∃ (tiles : List Tile) (rest : List Char),
      Text.decodeUtf8 bytes = tiles.flatMap Tile.chars ++ rest ∧
      (∀ earlier tile later, tiles = earlier ++ tile :: later →
        tile.Lies file (earlier.flatMap Tile.chars) (later.flatMap Tile.chars ++ rest)) ∧
      (rest = [] ∨ ∃ body, rest = '"' :: body ∧ '"' ∉ body) ∧
      (scan file (Text.decodeUtf8 bytes)).1 =
        tiles.filterMap Tile.token? ++ [endToken (.last file (Text.decodeUtf8 bytes))] ∧
      (scan file (Text.decodeUtf8 bytes)).2.map LexError.diagnostic = Tile.complaints file [] tiles ++
        if rest = [] then [] else [.lexical (.last file (Text.decodeUtf8 bytes)) "Unterminated string."] := by
  obtain ⟨tiles, rest, tiled⟩ := tiled file [] (Text.decodeUtf8 bytes)
  exact ⟨tiles, rest, tiled.whole, fun _ _ _ split => tiled.row.lies split, tiled.unread, tiled.tokens,
    tiled.complaints⟩

end LoxLang
