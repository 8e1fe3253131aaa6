import LoxLang.Proofs.Move
import LoxLang.Proofs.Scanner.Pieces

/-! Tokens and their places. Each piece is scanned on its own, from the place where the pieces before it
end. So a source that begins further down gives the same tokens further down, and a source after a
newline gives its own tokens below those of the source before it. -/
namespace LoxLang

def lineCount (source : List Char) : Nat := source.count '\n' + 1

namespace Position

def down (lines : Nat) (p : Position) : Position := { p with line := p.line + lines }

theorem advance_down (lines : Nat) (p : Position) (c : Char) :
    (p.down lines).advance c = (p.advance c).down lines := by
  unfold advance
  split
  · simp [down]
    omega
  · rfl

theorem after_down (lines : Nat) (p : Position) (text : List Char) :
    (p.down lines).after text = (p.after text).down lines := by
  unfold after
  induction text generalizing p with
  | nil => rfl
  | cons c text ih => rw [List.foldl_cons, List.foldl_cons, advance_down, ih]

theorem after_append (p : Position) (first second : List Char) :
    p.after (first ++ second) = (p.after first).after second := List.foldl_append

theorem after_file (p : Position) (text : List Char) : (p.after text).file = p.file := by
  unfold after
  induction text generalizing p with
  | nil => rfl
  | cons c text ih =>
    rw [List.foldl_cons, ih]
    unfold advance
    split <;> rfl

theorem after_line (p : Position) (text : List Char) :
    (p.after text).line = p.line + text.count '\n' := by
  unfold after
  induction text generalizing p with
  | nil => simp
  | cons c text ih =>
    rw [List.foldl_cons, ih, List.count_cons]
    unfold advance
    split <;> simp_all
    omega

/-- After a source and a newline the next line begins as a source does. -/
theorem after_newline (file : String) (source : List Char) :
    (start file).after (source ++ ['\n']) = (start file).down (lineCount source) := by
  have line := after_line (start file) source
  have name := after_file (start file) source
  rw [after_append]
  generalize (start file).after source = p at line name
  obtain ⟨l, column, f⟩ := p
  simp only [start] at line name
  subst line name
  simp [after, advance, down, start, lineCount]
  omega

end Position

/-- A word is an identifier or a keyword. -/
theorem TokenKind.keyword_mem (word : String) :
    (keyword? word).getD .identifier ∈ identifier :: keywords.map Prod.snd := by
  cases found : keyword? word with
  | none => simp
  | some kind =>
    obtain ⟨earlier, later, same, _⟩ := List.lookup_eq_some_iff.mp found
    simp [same]

theorem TokenKind.keyword_ne (word : String) (other : kind ∉ identifier :: keywords.map Prod.snd) :
    (keyword? word).getD .identifier ≠ kind :=
  fun same => other (same ▸ keyword_mem word)

namespace Piece

theorem place_down (lines : Nat) (start : Position) (piece : Piece) :
    piece.place (start.down lines) = (piece.place start).down lines :=
  Position.after_down lines start _

theorem token?_down (lines : Nat) (start : Position) (piece : Piece) :
    piece.token? (start.down lines) = (piece.token? start).map (Token.move (.down lines)) := by
  rw [token?, place_down, token?, Option.map_map]
  rfl

theorem readFailure_down (lines : Nat) (failure : Option String) (p : Position) :
    readFailure failure (p.down lines) = (readFailure failure p).map (LexError.move (.down lines)) := by
  cases failure <;> rfl

theorem errors_down (lines : Nat) (failure : Option String) (start : Position) (last : Bool)
    (piece : Piece) : piece.errors failure (start.down lines) last =
      (piece.errors failure start last).map (LexError.move (.down lines)) := by
  cases piece with
  | stray c =>
    simp only [errors, place_down]
    rfl
  | numeral whole fraction =>
    simp only [errors, place_down]
    split <;> rfl
  | comment body =>
    simp only [errors, Position.after_down, readFailure_down]
    split <;> rfl
  | openString body =>
    simp only [errors, Position.after_down, readFailure_down, List.map_append]
    rfl
  | blank | symbol | word | string => rfl

/-- Where the input just ends, it does not matter whether a piece is the last one. -/
theorem errors_last (start : Position) (last other : Bool) (piece : Piece) :
    piece.errors none start last = piece.errors none start other := by
  cases piece with
  | comment body => simp [errors, readFailure]
  | _ => rfl

/-- No piece makes an end token. -/
theorem token_kind {piece : Piece} (nonempty : piece.chars ≠ []) (made : piece.token? start = some t) :
    t.kind ≠ .eof := by
  unfold token? at made
  obtain ⟨⟨kind, literal⟩, meaning, rfl⟩ := Option.map_eq_some_iff.mp made
  cases piece with
  | symbol spelled =>
    obtain ⟨rfl, _⟩ := Prod.mk.inj (Option.some.inj meaning)
    rintro rfl
    exact nonempty rfl
  | word text =>
    obtain ⟨rfl, _⟩ := Prod.mk.inj (Option.some.inj meaning)
    exact TokenKind.keyword_ne _ (by decide)
  | numeral | string =>
    obtain ⟨rfl, _⟩ := Prod.mk.inj (Option.some.inj meaning)
    simp
  | blank | comment | stray | openString => cases meaning

end Piece

namespace Scanner

variable {failure : Option String} {start : Position} {list first : List Piece}

theorem collect_openString (failure : Option String) (start : Position) (body : List Char)
    (rest : List Piece) :
    collect failure start (.openString body :: rest) =
      ([endToken (start.after (Piece.openString body).chars)],
        (Piece.openString body).errors failure start rest.isEmpty) := rfl

theorem collect_cons (failure : Option String) (start : Position) (rest : List Piece)
    (closed : piece.Closed) :
    collect failure start (piece :: rest) =
      ((piece.token? start).toList ++ (collect failure (start.after piece.chars) rest).1,
        piece.errors failure start rest.isEmpty ++
          (collect failure (start.after piece.chars) rest).2) := by
  cases piece with
  | openString body => exact absurd rfl (closed body)
  | _ => rfl

theorem collect_blank (failure : Option String) (start : Position) (c : Char) (rest : List Piece) :
    collect failure start (.blank c :: rest) = collect failure (start.after [c]) rest := rfl

/-- Either the piece is closed, or it is an open string. -/
theorem closed_or_open (piece : Piece) : piece.Closed ∨ ∃ body, piece = .openString body := by
  cases piece with
  | openString body => exact .inr ⟨body, rfl⟩
  | _ => exact .inl (by simp [Piece.Closed])

theorem collect_down (lines : Nat) (failure : Option String) (start : Position) (list : List Piece) :
    collect failure (start.down lines) list =
      ((collect failure start list).1.map (Token.move (.down lines)),
        (collect failure start list).2.map (LexError.move (.down lines))) := by
  induction list generalizing start with
  | nil => simp [collect, Piece.readFailure_down, endToken, Token.move]
  | cons piece rest ih =>
    obtain closed | ⟨body, rfl⟩ := closed_or_open piece
    · rw [collect_cons _ _ _ closed, collect_cons _ _ _ closed, Position.after_down, ih,
        Piece.token?_down, Piece.errors_down, List.map_append, List.map_append]
      cases piece.token? start <;> rfl
    · rw [collect_openString, collect_openString, Position.after_down, Piece.errors_down]
      rfl

/-- The tokens of pieces without an open string, except the end token. -/
def body (start : Position) : List Piece → List Token
  | [] => []
  | piece :: rest => (piece.token? start).toList ++ body (start.after piece.chars) rest

theorem collect_append (closed : ∀ piece ∈ first, piece.Closed) (start : Position)
    (second : List Piece) :
    collect none start (first ++ second) =
      (body start first ++ (collect none (start.after (first.flatMap Piece.chars)) second).1,
        (collect none start first).2 ++
          (collect none (start.after (first.flatMap Piece.chars)) second).2) := by
  induction first generalizing start with
  | nil => rfl
  | cons piece first ih =>
    obtain ⟨here, later⟩ := List.forall_mem_cons.mp closed
    rw [List.cons_append, collect_cons _ _ _ here, collect_cons _ _ _ here, ih later, body,
      List.flatMap_cons, Position.after_append,
      Piece.errors_last start (first ++ second).isEmpty first.isEmpty, List.append_assoc,
      List.append_assoc]

/-- Where nothing is complained about, no string is open. -/
theorem closed_of_clean (clean : (collect failure start list).2 = []) :
    ∀ piece ∈ list, piece.Closed := by
  induction list generalizing start with
  | nil => simp
  | cons piece rest ih =>
    obtain closed | ⟨body, rfl⟩ := closed_or_open piece
    · rw [collect_cons _ _ _ closed] at clean
      exact List.forall_mem_cons.mpr ⟨closed, ih (List.append_eq_nil_iff.mp clean).2⟩
    · rw [collect_openString] at clean
      simp [Piece.errors] at clean

theorem body_kind (nonempty : ∀ piece ∈ list, piece.chars ≠ []) :
    ∀ t ∈ body start list, t.kind ≠ .eof := by
  induction list generalizing start with
  | nil => simp [body]
  | cons piece rest ih =>
    obtain ⟨here, later⟩ := List.forall_mem_cons.mp nonempty
    intro t member
    rcases List.mem_append.mp member with made | member
    · exact Piece.token_kind here (Option.mem_toList.mp made)
    · exact ih later t member

/-- The last token and no other is an end token. -/
theorem collect_ends (nonempty : ∀ piece ∈ list, piece.chars ≠ []) :
    ∃ tokens stop, (collect failure start list).1 = tokens ++ [endToken stop] ∧
      ∀ t ∈ tokens, t.kind ≠ .eof := by
  induction list generalizing start with
  | nil => exact ⟨[], start, rfl, by simp⟩
  | cons piece rest ih =>
    obtain ⟨here, later⟩ := List.forall_mem_cons.mp nonempty
    obtain closed | ⟨body, rfl⟩ := closed_or_open piece
    · obtain ⟨tokens, stop, same, kinds⟩ := @ih (start.after piece.chars) later
      refine ⟨(piece.token? start).toList ++ tokens, stop, ?_, ?_⟩
      · rw [collect_cons _ _ _ closed, same, List.append_assoc]
      · intro t member
        rcases List.mem_append.mp member with made | member
        · exact Piece.token_kind here (Option.mem_toList.mp made)
        · exact kinds t member
    · exact ⟨[], _, by rw [collect_openString]; rfl, by simp⟩

end Scanner

theorem scan_eq (file : String) (source : List Char) :
    scan file source = Scanner.collect none (.start file) (pieces source) := rfl

theorem scan_ends (file : String) (source : List Char) :
    ∃ tokens stop, (scan file source).1 = tokens ++ [endToken stop] ∧
      ∀ t ∈ tokens, t.kind ≠ .eof :=
  Scanner.collect_ends pieces_nonempty

/-- A source after a clean one and a newline is scanned as it is on its own, only further down. -/
theorem scan_seam (clean : (scan file first).2 = []) (second : List Char) :
    ∃ tokens stop, (scan file first).1 = tokens ++ [endToken stop] ∧ (∀ t ∈ tokens, t.kind ≠ .eof) ∧
      scan file (first ++ '\n' :: second) =
        (tokens ++ (scan file second).1.map (Token.move (.down (lineCount first))),
          (scan file second).2.map (LexError.move (.down (lineCount first)))) := by
  have closed : ∀ piece ∈ pieces first, piece.Closed := Scanner.closed_of_clean clean
  refine ⟨Scanner.body (.start file) (pieces first), (Position.start file).after first, ?_,
    Scanner.body_kind pieces_nonempty, ?_⟩
  · have alone := Scanner.collect_append closed (.start file) []
    rw [List.append_nil, pieces_chars] at alone
    exact congrArg Prod.fst alone
  · have shifted := Scanner.collect_down (lineCount first) none (.start file) (pieces second)
    rw [← Position.after_newline, Position.after_append] at shifted
    rw [scan_eq] at clean
    rw [scan_eq, pieces_seam closed, Scanner.collect_append closed, pieces_chars,
      Scanner.collect_blank, shifted, clean]
    rfl

end LoxLang
