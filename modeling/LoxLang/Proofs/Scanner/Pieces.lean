import LoxLang.Piece

/-! Cutting a source. The first character decides how the first piece is cut, and from that follows all
that is said here: the pieces put together are the source, and a newline between two sources keeps them
apart, unless a string is still open there. -/
namespace LoxLang
namespace Piece

/-- The characters that begin a piece of one kind only. -/
def marks : List Char :=
  [' ', '\t', '\r', '\n', '(', ')', '\x7b', '\x7d', ',', '.', '-', '+', ';', '*', '!', '=', '<', '>',
    '/', '"']

/-- The ways to cut a piece off that begins with `c`. -/
inductive Cutter (c : Char) : (List Char → Piece × List Char) → Prop where
  | blank : c ∈ [' ', '\t', '\r', '\n'] → Cutter c fun rest => (.blank c, rest)
  | symbol : kind.spelling = [c] → Cutter c fun rest => (.symbol kind, rest)
  | operator : short.spelling = [c] → long.spelling = [c, '='] → Cutter c (cutOperator short long)
  | slash : c = '/' → Cutter c cutSlash
  | quote : c = '"' → Cutter c cutString
  | digit : c.isDigit = true → Cutter c fun rest => cutNumeral (c :: rest)
  | letter : Text.startsWord c = true → Cutter c fun rest => cutWord (c :: rest)
  | stray : c ∉ marks → c.isDigit = false → Text.startsWord c = false → Cutter c fun rest => (.stray c, rest)

theorem cut_unmarked (unmarked : c ∉ marks) (rest : List Char) : cut c rest =
    if c.isDigit then cutNumeral (c :: rest)
    else if Text.startsWord c then cutWord (c :: rest) else (stray c, rest) := by
  unfold cut
  split <;> simp [marks] at unmarked ⊢

theorem cutter_cut (c : Char) : Cutter c (cut c) := by
  by_cases marked : c ∈ marks
  · simp only [marks, List.mem_cons, List.not_mem_nil, or_false] at marked
    rcases marked with rfl | rfl | rfl | rfl | rfl | rfl | rfl | rfl | rfl | rfl | rfl | rfl | rfl |
      rfl | rfl | rfl | rfl | rfl | rfl | rfl
    iterate 4 exact .blank (by simp)
    iterate 10 exact .symbol rfl
    iterate 4 exact .operator rfl rfl
    · exact .slash rfl
    · exact .quote rfl
  · rw [funext (cut_unmarked marked)]
    by_cases digit : c.isDigit
    · simpa only [digit, if_true] using .digit digit
    · by_cases letter : Text.startsWord c
      · simpa only [digit, letter, if_true] using .letter letter
      · simpa only [digit, letter] using .stray marked (by simpa using digit) (by simpa using letter)

section Seams

variable {p : Char → Bool} {c : Char}

theorem dropWhile_stops {input : List Char} (left : input.dropWhile p = c :: rest) : p c = false := by
  have stops := List.head?_dropWhile_not p input
  rwa [left] at stops

theorem takeWhile_seam (stops : p c = false) (first second : List Char) :
    (first ++ c :: second).takeWhile p = first.takeWhile p := by
  induction first with
  | nil => simp [stops]
  | cons d first ih => simp only [List.cons_append, List.takeWhile_cons, ih]

theorem dropWhile_seam (stops : p c = false) (first second : List Char) :
    (first ++ c :: second).dropWhile p = first.dropWhile p ++ c :: second := by
  induction first with
  | nil => simp [stops]
  | cons d first ih =>
    simp only [List.cons_append, List.dropWhile_cons, ih]
    split <;> rfl

end Seams

theorem cutString_closed (left : input.dropWhile (· != '"') = c :: rest) :
    cutString input = (string (input.takeWhile (· != '"')), rest) := by
  rw [cutString, left]

theorem cutString_chars (input : List Char) :
    (cutString input).1.chars ++ (cutString input).2 = '"' :: input := by
  have whole : input.takeWhile (· != '"') ++ input.dropWhile (· != '"') = input :=
    List.takeWhile_append_dropWhile
  cases left : input.dropWhile (· != '"') with
  | nil => simp [cutString, left, chars]
  | cons c rest =>
    obtain rfl : c = '"' := by simpa using dropWhile_stops left
    rw [left] at whole
    rw [cutString_closed left]
    simpa [chars] using whole

theorem cutNumeral_chars (input : List Char) :
    (cutNumeral input).1.chars ++ (cutNumeral input).2 = input := by
  have whole : input.takeWhile Char.isDigit ++ input.dropWhile Char.isDigit = input :=
    List.takeWhile_append_dropWhile
  unfold cutNumeral
  dsimp only
  split
  · rename_i digit rest left
    rw [left] at whole
    split
    · simpa [chars, List.takeWhile_append_dropWhile] using whole
    · simpa [chars] using whole
  · exact whole

/-- A piece and what is left after it are together what it was cut from. -/
theorem cut_chars (c : Char) (rest : List Char) :
    (cut c rest).1.chars ++ (cut c rest).2 = c :: rest := by
  have cutter := cutter_cut c
  generalize cut c = f at cutter
  cases cutter with
  | blank | stray => rfl
  | symbol spelling => simp [chars, spelling]
  | operator short long =>
    unfold cutOperator
    split
    · simp [chars, long]
    · simp [chars, short]
  | slash mark =>
    subst mark
    unfold cutSlash
    split
    · simp [chars, List.takeWhile_append_dropWhile]
    · rfl
  | quote mark =>
    subst mark
    exact cutString_chars rest
  | digit => exact cutNumeral_chars (c :: rest)
  | letter => simp [cutWord, chars, List.takeWhile_append_dropWhile]

def Closed (piece : Piece) : Prop :=
  ∀ body, piece ≠ openString body

theorem cutOperator_seam (short long : TokenKind) (first second : List Char) :
    cutOperator short long (first ++ '\n' :: second) =
      ((cutOperator short long first).1, (cutOperator short long first).2 ++ '\n' :: second) := by
  cases first with
  | nil => rfl
  | cons c first => by_cases equal : c = '=' <;> simp [cutOperator, equal]

theorem cutSlash_seam (first second : List Char) :
    cutSlash (first ++ '\n' :: second) =
      ((cutSlash first).1, (cutSlash first).2 ++ '\n' :: second) := by
  cases first with
  | nil => rfl
  | cons c first =>
    by_cases slash : c = '/'
    · subst slash
      simp [cutSlash, takeWhile_seam, dropWhile_seam]
    · simp [cutSlash, slash]

theorem cutString_seam (closed : (cutString first).1.Closed) (second : List Char) :
    cutString (first ++ second) = ((cutString first).1, (cutString first).2 ++ second) := by
  have whole : first.takeWhile (· != '"') ++ first.dropWhile (· != '"') = first :=
    List.takeWhile_append_dropWhile
  cases left : first.dropWhile (· != '"') with
  | nil =>
    refine absurd ?_ (closed first)
    simp [cutString, left]
  | cons c rest =>
    have stops := dropWhile_stops left
    rw [left] at whole
    have further : (first ++ second).dropWhile (· != '"') = c :: (rest ++ second) := by
      rw [List.dropWhile_append, left]
      rfl
    rw [cutString_closed left, cutString_closed further, ← whole, List.append_assoc,
      List.cons_append, takeWhile_seam (p := (· != '"')) stops, takeWhile_seam (p := (· != '"')) stops]

theorem cutNumeral_seam (first second : List Char) :
    cutNumeral (first ++ '\n' :: second) =
      ((cutNumeral first).1, (cutNumeral first).2 ++ '\n' :: second) := by
  have stops : '\n'.isDigit = false := rfl
  unfold cutNumeral
  rw [takeWhile_seam stops, dropWhile_seam stops]
  generalize first.dropWhile Char.isDigit = left
  match left with
  | [] => rfl
  | [c] => by_cases point : c = '.' <;> simp [point]
  | c :: d :: rest =>
    by_cases point : c = '.'
    · by_cases digit : d.isDigit <;> simp [point, digit, takeWhile_seam, dropWhile_seam]
    · simp [point]

theorem cutWord_seam (first second : List Char) :
    cutWord (first ++ '\n' :: second) =
      ((cutWord first).1, (cutWord first).2 ++ '\n' :: second) := by
  have stops : continuesWord '\n' = false := by decide
  simp [cutWord, takeWhile_seam stops, dropWhile_seam stops]

/-- A newline after the source changes nothing about its first piece, unless that is an open string. -/
theorem cut_seam (closed : (cut c first).1.Closed) (second : List Char) :
    cut c (first ++ '\n' :: second) = ((cut c first).1, (cut c first).2 ++ '\n' :: second) := by
  have cutter := cutter_cut c
  generalize cut c = f at cutter closed
  cases cutter with
  | blank | symbol | stray => rfl
  | operator => exact cutOperator_seam _ _ first second
  | slash => exact cutSlash_seam first second
  | quote => exact cutString_seam closed _
  | digit => exact cutNumeral_seam (c :: first) second
  | letter => exact cutWord_seam (c :: first) second

theorem cut_nonempty (c : Char) (rest : List Char) : (cut c rest).1.chars ≠ [] := by
  intro empty
  have whole := congrArg List.length (cut_chars c rest)
  have fewer := cut_length c rest
  rw [empty, List.nil_append, List.length_cons] at whole
  omega

end Piece

/-- The pieces of a source, put together, are the source. -/
theorem pieces_chars (source : List Char) : (pieces source).flatMap Piece.chars = source := by
  fun_induction pieces source with
  | case1 => rfl
  | case2 c rest ih => rw [List.flatMap_cons, ih, Piece.cut_chars]

theorem pieces_nonempty : ∀ piece ∈ pieces source, piece.chars ≠ [] := by
  fun_induction pieces source with
  | case1 => simp
  | case2 c rest ih => exact List.forall_mem_cons.mpr ⟨Piece.cut_nonempty c rest, ih⟩

/-- A newline between two sources keeps their pieces apart, unless a string is open there. -/
theorem pieces_seam (closed : ∀ piece ∈ pieces first, piece.Closed) (second : List Char) :
    pieces (first ++ '\n' :: second) = pieces first ++ .blank '\n' :: pieces second := by
  fun_induction pieces first with
  | case1 =>
    rw [List.nil_append, pieces]
    rfl
  | case2 c rest ih =>
    obtain ⟨here, later⟩ := List.forall_mem_cons.mp closed
    rw [List.cons_append, pieces, Piece.cut_seam here, ih later, List.cons_append]

end LoxLang
