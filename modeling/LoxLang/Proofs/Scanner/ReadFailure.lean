import LoxLang.Proofs.Scanner.Tiling

/-! A failure to read more of the source. The scanner gives the tokens of what could be read, as if the source
just ended there, and it complains of everything else that it would complain of. The failure itself is met at
the end of what could be read, once, or twice if a comment is still open there; and once the end token has been
handed out nothing is complained of any more. -/
namespace LoxLang

/-- Whether more input was asked for and could not be read. -/
def LexCause.isUnreadable : LexCause → Bool
  | unreadable _ => true
  | unexpectedCharacter _ | invalidNumber _ | unterminatedString => false

def readable (errors : List LexError) : List LexError := errors.filter (!·.cause.isUnreadable)

def unreadable (errors : List LexError) : List LexError := errors.filter (·.cause.isUnreadable)

theorem readable_append (first second : List LexError) :
    readable (first ++ second) = readable first ++ readable second := List.filter_append ..

theorem unreadable_append (first second : List LexError) :
    unreadable (first ++ second) = unreadable first ++ unreadable second := List.filter_append ..

/-- What the characters of a source belong to. Only the character after a slash tells whether the slash begins a
comment. -/
inductive Region where
  | code | slash | string | comment
deriving DecidableEq

namespace Region

def step : Region → Char → Region
  | comment, c => if c = '\n' then code else comment
  | string, c => if c = '"' then code else string
  | slash, c => if c = '/' then comment else if c = '"' then string else code
  | code, c => if c = '/' then slash else if c = '"' then string else code

def after (region : Region) (text : List Char) : Region := text.foldl step region

theorem after_cons (region : Region) (c : Char) (text : List Char) :
    region.after (c :: text) = (region.step c).after text := rfl

theorem after_append (region : Region) (first second : List Char) :
    region.after (first ++ second) = (region.after first).after second := List.foldl_append

theorem after_same {region : Region} {text : List Char} (same : ∀ c ∈ text, region.step c = region) :
    region.after text = region := by
  induction text with
  | nil => rfl
  | cons c text ih =>
    obtain ⟨here, later⟩ := List.forall_mem_cons.mp same
    rw [after_cons, here]
    exact ih later

/-- After a lone slash it goes on as in any other code. -/
theorem after_slash {text : List Char} (lone : ∀ c ∈ text.head?, c ≠ '/') :
    slash.after text = .comment ↔ code.after text = .comment := by
  cases text with
  | nil => decide
  | cons c text =>
    have other := lone c rfl
    simp only [after_cons, step, if_neg other]

end Region

/-- The source ends in a comment that no newline has ended. -/
def EndsInComment (source : List Char) : Prop := Region.code.after source = .comment

instance (source : List Char) : Decidable (EndsInComment source) :=
  inferInstanceAs (Decidable (Region.code.after source = .comment))

namespace Piece

/-- The piece is a comment, and nothing follows it. -/
def OpensComment (rest : List Char) (piece : Piece) : Prop := rest = [] ∧ ∃ body, piece = comment body

/-- A piece that begins with neither a slash nor a quote has none in it. -/
theorem cut_plain (noSlash : c ≠ '/') (noQuote : c ≠ '"') (rest : List Char) :
    (∀ d ∈ (cut c rest).1.chars, d ≠ '/' ∧ d ≠ '"') ∧ ∀ body, (cut c rest).1 ≠ comment body := by
  have cutter := cutter_cut c
  generalize cut c = f at cutter
  cases cutter with
  | blank | stray => simp [chars, noSlash, noQuote]
  | symbol spelling => simp [chars, spelling, noSlash, noQuote]
  | operator short long =>
    unfold cutOperator
    split
    · simp [chars, long, noSlash, noQuote]
    · simp [chars, short, noSlash, noQuote]
  | slash mark => exact absurd mark noSlash
  | quote mark => exact absurd mark noQuote
  | digit =>
    obtain ⟨whole, fraction, after, same, digits, places⟩ := cutNumeral_digits (c :: rest)
    simp only [same]
    refine ⟨fun d member => ?_, by simp⟩
    have inside : d.isDigit = true ∨ d = '.' := by
      cases fraction with
      | nil => exact .inl (digits d member)
      | cons e fraction =>
        rcases List.mem_append.mp member with before | point
        · exact .inl (digits d before)
        · exact (List.mem_cons.mp point).symm.imp_left (places d)
    constructor
    · rintro rfl
      revert inside
      decide
    · rintro rfl
      revert inside
      decide
  | letter =>
    refine ⟨fun d member => ?_, by simp [cutWord]⟩
    have inside : continuesWord d = true := List.mem_takeWhile_imp member
    constructor
    · rintro rfl
      revert inside
      decide
    · rintro rfl
      revert inside
      decide

theorem endsInComment_cutSlash (rest : List Char) :
    EndsInComment ('/' :: rest) ↔
      (cutSlash rest).1.OpensComment (cutSlash rest).2 ∨ EndsInComment (cutSlash rest).2 := by
  unfold cutSlash
  split
  · rename_i rest
    have inside : ∀ c ∈ rest.takeWhile (· != '\n'), Region.comment.step c = .comment := by
      intro c member
      have line := List.mem_takeWhile_imp member
      exact if_neg (by simpa using line)
    have whole : rest.takeWhile (· != '\n') ++ rest.dropWhile (· != '\n') = rest :=
      List.takeWhile_append_dropWhile
    have ends : EndsInComment ('/' :: '/' :: rest) ↔
        Region.comment.after (rest.dropWhile (· != '\n')) = .comment := by
      change Region.comment.after rest = _ ↔ _
      rw [← whole, Region.after_append, Region.after_same inside, whole]
    rw [ends]
    cases left : rest.dropWhile (· != '\n') with
    | nil => simp [OpensComment, Region.after]
    | cons c later =>
      obtain rfl : c = '\n' := by simpa using dropWhile_stops left
      simp [OpensComment, EndsInComment, Region.after_cons, Region.step]
  · rename_i other
    have lone : ∀ c ∈ rest.head?, c ≠ '/' := by
      rintro c first rfl
      obtain ⟨more, rfl⟩ := List.head?_eq_some_iff.mp first
      exact other more rfl
    simp [OpensComment, EndsInComment, Region.after_cons, Region.step, Region.after_slash lone]

theorem endsInComment_cutString (rest : List Char) :
    EndsInComment ('"' :: rest) ↔
      (cutString rest).1.OpensComment (cutString rest).2 ∨ EndsInComment (cutString rest).2 := by
  have inside : ∀ c ∈ rest.takeWhile (· != '"'), Region.string.step c = .string := by
    intro c member
    have body := List.mem_takeWhile_imp member
    exact if_neg (by simpa using body)
  have whole : rest.takeWhile (· != '"') ++ rest.dropWhile (· != '"') = rest :=
    List.takeWhile_append_dropWhile
  have ends : EndsInComment ('"' :: rest) ↔
      Region.string.after (rest.dropWhile (· != '"')) = .comment := by
    change Region.string.after rest = _ ↔ _
    rw [← whole, Region.after_append, Region.after_same inside, whole]
  rw [ends]
  cases left : rest.dropWhile (· != '"') with
  | nil => simp [cutString, left, OpensComment, EndsInComment, Region.after]
  | cons c later =>
    obtain rfl : c = '"' := by simpa using dropWhile_stops left
    rw [cutString_closed left]
    simp [OpensComment, EndsInComment, Region.after_cons, Region.step]

/-- A source ends in a comment if its first piece is one that is open at the end, or if what follows the first
piece ends in one. -/
theorem endsInComment_cut (c : Char) (rest : List Char) :
    EndsInComment (c :: rest) ↔
      (cut c rest).1.OpensComment (cut c rest).2 ∨ EndsInComment (cut c rest).2 := by
  by_cases slash : c = '/'
  · subst slash
    exact endsInComment_cutSlash rest
  by_cases quote : c = '"'
  · subst quote
    exact endsInComment_cutString rest
  obtain ⟨plain, other⟩ := cut_plain slash quote rest
  have closed : ¬ (cut c rest).1.OpensComment (cut c rest).2 := fun ⟨_, body, found⟩ => other body found
  have stays : ∀ d ∈ (cut c rest).1.chars, Region.code.step d = .code := by
    intro d member
    rw [Region.step, if_neg (plain d member).1, if_neg (plain d member).2]
  rw [or_iff_right closed, EndsInComment, ← cut_chars c rest, Region.after_append, Region.after_same stays]
  rfl

section Errors

variable {failure : Option String} {reason : String} {start : Position} {last : Bool} {piece : Piece}

theorem readable_readFailure (failure : Option String) (p : Position) :
    readable (readFailure failure p) = [] := by
  cases failure <;> rfl

/-- A failure to read adds to the complaints about a piece and changes none of them. -/
theorem readable_errors (failure : Option String) (start : Position) (last : Bool) (piece : Piece) :
    readable (piece.errors failure start last) = piece.errors none start last := by
  cases piece with
  | comment body => cases last <;> simp [errors, readable_readFailure] <;> rfl
  | openString body =>
    simp only [errors, readable_append, readable_readFailure]
    rfl
  | numeral whole fraction =>
    simp only [errors]
    split <;> rfl
  | blank | stray | symbol | word | string => rfl

theorem unreadable_openString (body : List Char) :
    unreadable ((openString body).errors (some reason) start last) =
      [⟨start.after (openString body).chars, .unreadable reason⟩] := rfl

theorem unreadable_open (opens : piece.OpensComment rest) :
    unreadable (piece.errors (some reason) start rest.isEmpty) =
      [⟨start.after piece.chars, .unreadable reason⟩] := by
  obtain ⟨rfl, body, rfl⟩ := opens
  rfl

/-- Only comments and open strings ask for more than they have. -/
theorem unreadable_closed (closed : piece.Closed) (ended : ¬ piece.OpensComment rest) :
    unreadable (piece.errors (some reason) start rest.isEmpty) = [] := by
  cases piece with
  | comment body =>
    have more : rest ≠ [] := fun none => ended ⟨none, body, rfl⟩
    simp [errors, more, unreadable]
  | openString body => exact absurd rfl (closed body)
  | numeral whole fraction =>
    simp only [errors]
    split <;> rfl
  | blank | stray | symbol | word | string => rfl

end Errors
end Piece

theorem pieces_isEmpty (source : List Char) : (pieces source).isEmpty = source.isEmpty := by
  cases source with
  | nil =>
    rw [pieces]
    rfl
  | cons c rest =>
    rw [pieces]
    rfl

/-- The same scanner over a source that just ends. -/
def Scanner.withoutFailure (s : Scanner) : Scanner := { s with failure := none }

/-- What the call would give if the source just ended. -/
def Scanned.withoutFailure (found : Scanned) : Scanned where
  token := found.token
  errors := readable found.errors
  rest := found.rest.withoutFailure

namespace Scanner

def afterCalls (s : Scanner) : Nat → Scanner
  | 0 => s
  | calls + 1 => (s.afterCalls calls).next.rest

def call (s : Scanner) (earlier : Nat) : Scanned := (s.afterCalls earlier).next

/-- The tokens of so many calls and then all that remain, and the complaints in the same order. -/
def drain (s : Scanner) (calls : Nat) : List Token × List LexError :=
  ((List.range calls).map (fun n => (s.call n).token) ++ (s.afterCalls calls).tokens.1,
    (List.range calls).flatMap (fun n => (s.call n).errors) ++ (s.afterCalls calls).tokens.2)

variable {failure : Option String} {start : Position} {list : List Piece}

theorem seek_withoutFailure (failure : Option String) (start : Position) (list : List Piece) :
    seek none start list = (seek failure start list).withoutFailure := by
  induction list generalizing start with
  | nil =>
    rw [seek, seek, Scanned.withoutFailure, Piece.readable_readFailure]
    rfl
  | cons piece rest ih =>
    obtain closed | ⟨body, rfl⟩ := closed_or_open piece
    · cases made : piece.token? start with
      | some t =>
        rw [seek.eq_3 _ _ _ _ _ closed made, seek.eq_3 _ _ _ _ _ closed made, Scanned.withoutFailure,
          Piece.readable_errors]
        rfl
      | none =>
        rw [seek.eq_4 _ _ _ _ closed made, seek.eq_4 _ _ _ _ closed made, ih, Scanned.withoutFailure,
          Scanned.withoutFailure, readable_append, Piece.readable_errors]
    · rw [seek, seek, Scanned.withoutFailure, Piece.readable_errors]
      rfl

theorem collect_withoutFailure (failure : Option String) (start : Position) (list : List Piece) :
    collect none start list = ((collect failure start list).1, readable (collect failure start list).2) := by
  induction list generalizing start with
  | nil =>
    rw [collect, collect, Piece.readable_readFailure]
    rfl
  | cons piece rest ih =>
    obtain closed | ⟨body, rfl⟩ := closed_or_open piece
    · rw [collect_cons _ _ _ closed, collect_cons _ _ _ closed, ih, readable_append, Piece.readable_errors]
    · rw [collect_openString, collect_openString, Piece.readable_errors]

theorem afterCalls_withoutFailure (s : Scanner) (calls : Nat) :
    s.withoutFailure.afterCalls calls = (s.afterCalls calls).withoutFailure := by
  induction calls with
  | zero => rfl
  | succ calls ih =>
    rw [afterCalls, ih, next, withoutFailure, seek_withoutFailure (s.afterCalls calls).failure]
    rfl

theorem call_withoutFailure (s : Scanner) (earlier : Nat) :
    s.withoutFailure.call earlier = (s.call earlier).withoutFailure := by
  rw [call, afterCalls_withoutFailure]
  exact seek_withoutFailure ..

theorem drain_withoutFailure (s : Scanner) (calls : Nat) :
    s.withoutFailure.drain calls = ((s.drain calls).1, readable (s.drain calls).2) := by
  have remaining : (s.afterCalls calls).withoutFailure.tokens =
      ((s.afterCalls calls).tokens.1, readable (s.afterCalls calls).tokens.2) :=
    collect_withoutFailure ..
  have each : readable ((List.range calls).flatMap fun n => (s.call n).errors) =
      (List.range calls).flatMap fun n => readable (s.call n).errors := List.filter_flatMap
  simp only [drain, call_withoutFailure, afterCalls_withoutFailure, remaining, readable_append, each]
  rfl

/-- A call takes the first of the remaining complaints. -/
theorem seek_errors (failure : Option String) (start : Position) (list : List Piece) :
    (seek failure start list).errors ++ (seek failure start list).rest.tokens.2 =
      (collect failure start list).2 := by
  induction list generalizing start with
  | nil =>
    rw [seek, collect]
    exact List.append_nil _
  | cons piece rest ih =>
    obtain closed | ⟨body, rfl⟩ := closed_or_open piece
    · rw [collect_cons _ _ _ closed]
      cases made : piece.token? start with
      | some t => rw [seek.eq_3 _ _ _ _ _ closed made, tokens]
      | none => rw [seek.eq_4 _ _ _ _ closed made, List.append_assoc, ih]
    · rw [seek, collect_openString]
      exact List.append_nil _

/-- However many calls are made first, the complaints are the same. -/
theorem drain_errors (s : Scanner) (calls : Nat) : (s.drain calls).2 = s.tokens.2 := by
  induction calls with
  | zero => rfl
  | succ calls ih =>
    have one : (s.call calls).errors ++ (s.afterCalls (calls + 1)).tokens.2 = (s.afterCalls calls).tokens.2 :=
      seek_errors ..
    rw [← ih]
    simp only [drain, List.range_succ, List.flatMap_append, List.flatMap_singleton, List.append_assoc, one]

/-- The failure is met at the end of the source: in a comment that is open there, and by the call that gives the
end token. -/
theorem unreadable_collect (file : String) (before source : List Char) (reason : String) :
    unreadable (collect (some reason) (.last file before) (LoxLang.pieces source)).2 =
      List.replicate (if EndsInComment source then 2 else 1)
        ⟨.last file (before ++ source), .unreadable reason⟩ := by
  fun_induction LoxLang.pieces source generalizing before with
  | case1 =>
    rw [List.append_nil]
    rfl
  | case2 c rest ih =>
    have region := Piece.endsInComment_cut c rest
    have whole := Piece.cut_chars c rest
    obtain closed | ⟨body, found⟩ := closed_or_open (Piece.cut c rest).1
    · have below := ih (before ++ (Piece.cut c rest).1.chars)
      rw [List.append_assoc, whole] at below
      rw [collect_cons _ _ _ closed, unreadable_append, Position.last_after, below, pieces_isEmpty]
      by_cases opens : (Piece.cut c rest).1.OpensComment (Piece.cut c rest).2
      · have ended : ¬ EndsInComment (Piece.cut c rest).2 := by
          rw [opens.1]
          decide
        rw [Piece.unreadable_open opens, if_pos (region.mpr (.inl opens)), if_neg ended, Position.last_after]
        rw [opens.1, List.append_nil] at whole
        rw [whole]
        rfl
      · rw [Piece.unreadable_closed closed opens, List.nil_append]
        simp only [region, opens, false_or]
    · obtain ⟨rfl, rfl, none, _⟩ := Piece.cut_open found
      have ended : ¬ EndsInComment ('"' :: body) := by
        rw [region, found, none]
        rintro (⟨_, _, comment⟩ | ends)
        · contradiction
        · exact absurd ends (by decide)
      rw [found, collect_openString, Piece.unreadable_openString, if_neg ended, Position.last_after]
      rfl

/-- Once the end token has been given, nothing is left. -/
theorem seek_ended (nonempty : ∀ piece ∈ list, piece.chars ≠ [])
    (ended : (seek failure start list).token.kind = .eof) :
    ∃ stop, (seek failure start list).token = endToken stop ∧
      (seek failure start list).rest = { pieces := [], position := stop } := by
  induction list generalizing start with
  | nil => exact ⟨start, rfl, rfl⟩
  | cons piece rest ih =>
    obtain ⟨here, later⟩ := List.forall_mem_cons.mp nonempty
    obtain closed | ⟨body, rfl⟩ := closed_or_open piece
    · cases made : piece.token? start with
      | some t =>
        rw [seek.eq_3 _ _ _ _ _ closed made] at ended
        exact absurd ended (Piece.token_kind here made)
      | none =>
        rw [seek.eq_4 _ _ _ _ closed made] at ended ⊢
        exact ih later ended
    · exact ⟨_, rfl, rfl⟩

theorem seek_suffix (failure : Option String) (start : Position) (list : List Piece) :
    (seek failure start list).rest.pieces <:+ list := by
  induction list generalizing start with
  | nil => exact List.suffix_refl _
  | cons piece rest ih =>
    obtain closed | ⟨body, rfl⟩ := closed_or_open piece
    · cases made : piece.token? start with
      | some t =>
        rw [seek.eq_3 _ _ _ _ _ closed made]
        exact List.suffix_cons piece rest
      | none =>
        rw [seek.eq_4 _ _ _ _ closed made]
        exact (ih _).trans (List.suffix_cons piece rest)
    · exact List.nil_suffix

theorem afterCalls_suffix (s : Scanner) (calls : Nat) : (s.afterCalls calls).pieces <:+ s.pieces := by
  induction calls with
  | zero => exact List.suffix_refl _
  | succ calls ih => exact (seek_suffix ..).trans ih

/-- After the end token it comes again and again, and nothing is complained of. -/
theorem call_ended {s : Scanner} (nonempty : ∀ piece ∈ s.pieces, piece.chars ≠ [])
    (ended : (s.call first).token.kind = .eof) (later : first < n) :
    (s.call n).token = (s.call first).token ∧ (s.call n).errors = [] ∧
      (s.afterCalls n).tokens = ([(s.call first).token], []) := by
  have remaining : ∀ piece ∈ (s.afterCalls first).pieces, piece.chars ≠ [] :=
    fun piece member => nonempty piece ((s.afterCalls_suffix first).subset member)
  obtain ⟨stop, token, rest⟩ := seek_ended remaining ended
  have idle : s.afterCalls n = { pieces := [], position := stop } := by
    induction n with
    | zero => contradiction
    | succ n ih =>
      rcases Nat.lt_succ_iff_lt_or_eq.mp later with before | rfl
      · rw [afterCalls, ih before]
        rfl
      · exact rest
  have again : (s.call first).token = endToken stop := token
  rw [again, call, idle]
  exact ⟨rfl, rfl, rfl⟩

/-- A scanner over a source that ends after these bytes. -/
def ending (file : String) (bytes : List UInt8) : Scanner := ofSource file (Text.decodeUtf8 bytes) none

/-- A scanner over a source of which nothing can be read after these bytes. -/
def failing (file : String) (bytes : List UInt8) (reason : String) : Scanner :=
  ofSource file (Text.decodeUtf8 bytes) (some reason)

end Scanner

/-- Where a source cannot be read further, the tokens are the same as if it ended there, call by call and then all
at once, and so are the complaints about anything but reading. The failure is complained of at the end of what
could be read: twice if a comment is open there, and once otherwise. After the end token every call gives it
again, without a complaint. -/
theorem read_failure_reported (file : String) (bytes : List UInt8) (reason : String) (calls : Nat) :
    ((Scanner.failing file bytes reason).drain calls).1 = ((Scanner.ending file bytes).drain calls).1 ∧
    readable ((Scanner.failing file bytes reason).drain calls).2 = ((Scanner.ending file bytes).drain calls).2 ∧
    unreadable ((Scanner.failing file bytes reason).drain calls).2 =
      List.replicate (if EndsInComment (Text.decodeUtf8 bytes) then 2 else 1)
        { position := .last file (Text.decodeUtf8 bytes), cause := .unreadable reason } ∧
    ∀ first n, ((Scanner.failing file bytes reason).call first).token.kind = .eof → first < n →
      ((Scanner.failing file bytes reason).call n).token = ((Scanner.failing file bytes reason).call first).token ∧
      ((Scanner.failing file bytes reason).call n).errors = [] ∧
      ((Scanner.failing file bytes reason).afterCalls n).tokens =
        ([((Scanner.failing file bytes reason).call first).token], []) := by
  have same := (Scanner.failing file bytes reason).drain_withoutFailure calls
  change (Scanner.ending file bytes).drain calls = _ at same
  refine ⟨?_, ?_, ?_, fun first n ended later => ?_⟩
  · rw [same]
  · rw [same]
  · rw [Scanner.drain_errors]
    exact Scanner.unreadable_collect file [] (Text.decodeUtf8 bytes) reason
  · exact Scanner.call_ended pieces_nonempty ended later

/-- A name, and a comment whose last character is cut off in the middle. -/
theorem read_failure_reported_in_comment :
    let bytes : List UInt8 := [0x61, 0x20, 0x2f, 0x2f, 0xc3]
    let scanner := Scanner.failing "f" bytes "gone"
    let whole := Scanner.ending "f" bytes
    (scanner.call 1).token.kind = .eof ∧ (scanner.drain 4).1 = (whole.drain 4).1 ∧
    readable (scanner.drain 4).2 = (whole.drain 4).2 ∧
    unreadable (scanner.drain 4).2 =
      [⟨⟨1, 5, "f"⟩, .unreadable "gone"⟩, ⟨⟨1, 5, "f"⟩, .unreadable "gone"⟩] ∧
    (scanner.call 3).token = (scanner.call 1).token ∧ (scanner.call 3).errors = [] := by
  intro bytes scanner whole
  obtain ⟨tokens, others, failures, again⟩ := read_failure_reported "f" bytes "gone" 4
  have ended : (scanner.call 1).token.kind = .eof := by decide +kernel
  have inside : EndsInComment (Text.decodeUtf8 bytes) := by decide +kernel
  have place : Position.last "f" (Text.decodeUtf8 bytes) = ⟨1, 5, "f"⟩ := by decide +kernel
  obtain ⟨token, quiet, _⟩ := again 1 3 ended (by decide)
  rw [if_pos inside, place] at failures
  exact ⟨ended, tokens, others, failures, token, quiet⟩

end LoxLang
