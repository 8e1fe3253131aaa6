import LoxLang.Proofs.Scanner.Tiling

/-! Scanning a text that is put together from lexemes, with gaps between them. Where a lexeme ends depends
on what follows it, so each one is scanned with all that comes after it still there. -/
namespace LoxLang

/-- The text cannot be taken for more of a numeral. -/
def Apart (text : List Char) : Prop :=
  ∀ c ∈ text.head?, c.isDigit = false ∧ c ≠ '.'

/-- What may stand between tokens: blanks, and comments together with the newlines that end them. -/
inductive Gap : List Char → Prop where
  | empty : Gap []
  | blank : c ∈ blanks → Gap text → Gap (c :: text)
  | comment : '\n' ∉ body → Gap text → Gap ('/' :: '/' :: (body ++ '\n' :: text))

theorem apart_cons (digit : c.isDigit = false) (point : c ≠ '.') (rest : List Char) :
    Apart (c :: rest) := by
  intro d first
  obtain rfl : c = d := Option.some.inj first
  exact ⟨digit, point⟩

theorem Gap.apart (gap : Gap text) (rest : Apart input) : Apart (text ++ input) := by
  cases gap with
  | empty => exact rest
  | blank blank _ =>
    simp only [blanks, List.mem_cons, List.not_mem_nil, or_false] at blank
    rcases blank with rfl | rfl | rfl | rfl <;> exact apart_cons rfl (by decide) _
  | comment => exact apart_cons rfl (by decide) _

namespace Piece

/-- A row of characters of one kind ends where a character of another kind follows, or nothing. -/
theorem span_ends {p : Char → Bool} {input : List Char} (inside : ∀ c ∈ text, p c = true)
    (ends : ∀ c ∈ input.head?, p c = false) :
    (text ++ input).takeWhile p = text ∧ (text ++ input).dropWhile p = input := by
  rw [List.takeWhile_append_of_pos inside, List.dropWhile_append_of_pos inside]
  cases input with
  | nil => simp
  | cons c input => simp [ends c rfl]

theorem dropWhile_ends (p : Char → Bool) (input : List Char) :
    ∀ c ∈ (input.dropWhile p).head?, p c = false := by
  intro c first
  obtain ⟨rest, left⟩ := List.head?_eq_some_iff.mp first
  exact dropWhile_stops left

theorem cutWord_ends {input : List Char} (inside : ∀ c ∈ text, continuesWord c = true)
    (ends : ∀ c ∈ input.head?, continuesWord c = false) : cutWord (text ++ input) = (word text, input) := by
  obtain ⟨taken, left⟩ := span_ends inside ends
  rw [cutWord, taken, left]

theorem cutString_again (body input : List Char) (inside : '"' ∉ body) :
    cutString (body ++ '"' :: input) = (string body, input) := by
  have plain : ∀ c ∈ body, (c != '"') = true := by
    intro c member
    simpa using fun same : c = '"' => inside (same ▸ member)
  have stops : ∀ c ∈ ('"' :: input).head?, (c != '"') = false := by simp
  obtain ⟨taken, left⟩ := span_ends plain stops
  rw [cutString_closed left, taken]

theorem cutOperator_ends {input : List Char} (ends : ∀ c ∈ input.head?, c ≠ '=') :
    cutOperator short long input = (symbol short, input) := by
  cases input with
  | nil => rfl
  | cons c input =>
    have other := ends c rfl
    simp [cutOperator, other]

theorem cutSlash_apart {input : List Char} (apart : ∀ c ∈ input.head?, c ≠ '/') :
    cutSlash input = (symbol .slash, input) := by
  cases input with
  | nil => rfl
  | cons c input =>
    have other := apart c rfl
    simp [cutSlash, other]

/-- A numeral ends before anything but a digit, and, without a point of its own, a point and a digit. -/
theorem cutNumeral_ends (digits : ∀ c ∈ whole, c.isDigit = true)
    (places : ∀ c ∈ fraction, c.isDigit = true) (ends : ∀ c ∈ rest.head?, c.isDigit = false)
    (point : fraction = [] → ∀ d more, rest = '.' :: d :: more → d.isDigit = false) :
    cutNumeral ((numeral whole fraction).chars ++ rest) = (numeral whole fraction, rest) := by
  cases fraction with
  | nil =>
    obtain ⟨taken, left⟩ := span_ends digits ends
    unfold cutNumeral
    rw [chars, taken, left]
    dsimp only
    split
    · rw [if_neg (by simp [point rfl _ _ rfl])]
    · rfl
  | cons d ds =>
    obtain ⟨digit, later⟩ := List.forall_mem_cons.mp places
    have spelled : (numeral whole (d :: ds)).chars ++ rest = whole ++ '.' :: d :: (ds ++ rest) := by
      simp [chars]
    have stops : ∀ c ∈ ('.' :: d :: (ds ++ rest)).head?, c.isDigit = false := by
      intro c first
      obtain rfl := Option.some.inj first
      rfl
    obtain ⟨taken, left⟩ := span_ends digits stops
    obtain ⟨further, beyond⟩ := span_ends later ends
    unfold cutNumeral
    rw [spelled, taken, left]
    simp only [if_pos digit, further, beyond]

/-- A numeral goes as far as it can; what is apart from it neither adds a digit nor a fraction. -/
theorem cutNumeral_apart (digits : ∀ c ∈ whole, c.isDigit = true)
    (places : ∀ c ∈ fraction, c.isDigit = true) (apart : Apart rest) :
    cutNumeral ((numeral whole fraction).chars ++ rest) = (numeral whole fraction, rest) := by
  refine cutNumeral_ends digits places (fun c first => (apart c first).1) ?_
  rintro - d more rfl
  exact absurd rfl (apart '.' rfl).2

theorem cut_digit (digit : c.isDigit = true) (rest : List Char) : cut c rest = cutNumeral (c :: rest) := by
  have unmarked : c ∉ marks := by
    intro marked
    have plain : marks.all (!·.isDigit) = true := by decide
    have other := List.all_eq_true.mp plain c marked
    rw [digit] at other
    contradiction
  rw [cut_unmarked unmarked, if_pos digit]

theorem cut_blank (blank : c ∈ blanks) (rest : List Char) : cut c rest = (.blank c, rest) := by
  simp only [blanks, List.mem_cons, List.not_mem_nil, or_false] at blank
  rcases blank with rfl | rfl | rfl | rfl <;> rfl

/-- A comment ends before the line break, which is cut as a blank of its own. -/
theorem cut_comment (line : '\n' ∉ body) (ends : ∀ c ∈ rest.head?, c = '\n') :
    cut '/' ('/' :: (body ++ rest)) = (comment body, rest) := by
  have inline : ∀ c ∈ body, (c != '\n') = true := by
    intro c inside
    simpa using fun same : c = '\n' => line (same ▸ inside)
  have stops : ∀ c ∈ rest.head?, (c != '\n') = false := by
    intro c first
    simpa using ends c first
  obtain ⟨taken, left⟩ := span_ends inline stops
  change cutSlash ('/' :: (body ++ rest)) = _
  rw [cutSlash, taken, left]

theorem cut_slash (other : c ≠ '/') (rest : List Char) :
    cut '/' (c :: rest) = (symbol .slash, c :: rest) := by
  change cutSlash (c :: rest) = _
  simp [cutSlash, other]

end Piece

/-- From `start` on, scanning the input gives the tokens without a complaint, and then goes on with `rest`
from `stop` on. -/
def Scans (start : Position) (input : List Char) (tokens : List Token) (stop : Position)
    (rest : List Char) : Prop :=
  Scanner.collect none start (pieces input) =
    (tokens ++ (Scanner.collect none stop (pieces rest)).1, (Scanner.collect none stop (pieces rest)).2)

namespace Scans

variable {start mid stop : Position} {input middle rest : List Char}

theorem refl (start : Position) (input : List Char) : Scans start input [] start input := rfl

theorem append (first : Scans start input earlier mid middle) (second : Scans mid middle later stop rest) :
    Scans start input (earlier ++ later) stop rest := by
  unfold Scans at first second ⊢
  rw [first, second, List.append_assoc]

theorem of_cut {piece : Piece} (cut : Piece.cut c input = (piece, rest)) (closed : piece.Closed)
    (quiet : ∀ isLast, piece.errors none start isLast = []) :
    Scans start (c :: input) (piece.token? start).toList (start.after piece.chars) rest := by
  unfold Scans
  rw [pieces, cut, Scanner.collect_cons none start (pieces rest) closed, quiet, List.nil_append]

theorem of_blank (blank : c ∈ blanks) (start : Position) (rest : List Char) :
    Scans start (c :: rest) [] (start.after [c]) rest := by
  have closed : (Piece.blank c).Closed := by simp [Piece.Closed]
  exact of_cut (Piece.cut_blank blank rest) closed fun _ => rfl

theorem of_comment (line : '\n' ∉ body) (start : Position) (rest : List Char) :
    ∃ stop, Scans start ('/' :: '/' :: (body ++ '\n' :: rest)) [] stop rest := by
  have closed : (Piece.comment body).Closed := by simp [Piece.Closed]
  have ends : ∀ c ∈ ('\n' :: rest).head?, c = '\n' := by simp
  have comment : Scans start _ [] _ _ := of_cut (Piece.cut_comment line ends) closed fun isLast => by
    cases isLast <;> rfl
  exact ⟨_, comment.append (of_blank (by decide) _ rest)⟩

theorem of_symbol (start : Position) (cut : Piece.cut c input = (.symbol kind, rest)) :
    ∃ t stop, t.kind = kind ∧ Scans start (c :: input) [t] stop rest := by
  have closed : (Piece.symbol kind).Closed := by simp [Piece.Closed]
  exact ⟨_, _, rfl, of_cut cut closed fun _ => rfl⟩

theorem of_numeral (start : Position) (some : whole ≠ []) (digits : ∀ c ∈ whole, c.isDigit = true)
    (places : ∀ c ∈ fraction, c.isDigit = true) (small : Number.overflows whole fraction = false)
    (apart : Apart rest) :
    ∃ t stop, t.kind = .number ∧ t.literal = .num (Number.ofNumeral whole fraction) ∧
      Scans start ((Piece.numeral whole fraction).chars ++ rest) [t] stop rest := by
  have cut := Piece.cutNumeral_apart digits places apart
  have closed : (Piece.numeral whole fraction).Closed := by simp [Piece.Closed]
  obtain ⟨c, more, begins⟩ : ∃ c more, (Piece.numeral whole fraction).chars = c :: more ∧ c.isDigit = true := by
    obtain ⟨c, more, rfl⟩ := List.exists_cons_of_ne_nil some
    cases fraction <;> exact ⟨c, _, rfl, digits c List.mem_cons_self⟩
  rw [begins.1, List.cons_append] at cut ⊢
  rw [← Piece.cut_digit begins.2] at cut
  refine ⟨_, _, rfl, rfl, of_cut cut closed fun _ => ?_⟩
  simp [Piece.errors, small]

/-- A source that is scanned to its end. -/
theorem scan_eq (whole : Scans (.start file) source tokens stop []) :
    scan file source = (tokens ++ [endToken stop], []) := by
  rw [LoxLang.scan_eq, whole, pieces]
  rfl

end Scans

/-- A gap makes no tokens. -/
theorem Gap.scans (gap : Gap text) (start : Position) (rest : List Char) :
    ∃ stop, Scans start (text ++ rest) [] stop rest := by
  induction gap generalizing start with
  | empty => exact ⟨start, .refl start rest⟩
  | blank blank _ ih =>
    obtain ⟨stop, later⟩ := ih _
    exact ⟨stop, (Scans.of_blank blank start _).append later⟩
  | comment line _ ih =>
    obtain ⟨mid, first⟩ := Scans.of_comment line start _
    obtain ⟨stop, later⟩ := ih mid
    refine ⟨stop, ?_⟩
    simpa using first.append later

/-- A symbol after a gap makes its token. -/
theorem Gap.scans_symbol (gap : Gap text) (start : Position)
    (cut : Piece.cut c input = (.symbol kind, rest)) :
    ∃ t stop, t.kind = kind ∧ Scans start (text ++ c :: input) [t] stop rest := by
  obtain ⟨mid, before⟩ := gap.scans start (c :: input)
  obtain ⟨t, stop, kind, here⟩ := Scans.of_symbol mid cut
  exact ⟨t, stop, kind, before.append here⟩

end LoxLang
