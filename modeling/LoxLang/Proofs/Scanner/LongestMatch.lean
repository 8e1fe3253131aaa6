import LoxLang.Proofs.Scanner.Lexemes

/-! Scanning takes the longest match. Every token lies in the lexical grammar, and what follows it in the
source cannot be taken for more of it. There is only one way to lay a source out in such tokens and in what
lies between them, so these conditions say all about how a source is scanned. -/
namespace LoxLang

/-- The lexical grammar: the kind of a token, its characters and its literal. -/
inductive Lexical : TokenKind → List Char → Value → Prop where
  | symbol : (kind, text) ∈ TokenKind.symbols → Lexical kind text .nil
  | keyword : (word, kind) ∈ TokenKind.keywords → Lexical kind word.toList .nil
  | identifier : Text.startsWord c = true → (∀ d ∈ more, Piece.continuesWord d = true) →
      (∀ kind, (String.ofList (c :: more), kind) ∉ TokenKind.keywords) →
      Lexical .identifier (c :: more) .nil
  | whole : digits ≠ [] → (∀ c ∈ digits, c.isDigit = true) →
      Lexical .number digits (.num (Number.ofNumeral digits []))
  | fraction : digits ≠ [] → (∀ c ∈ digits, c.isDigit = true) → places ≠ [] →
      (∀ c ∈ places, c.isDigit = true) →
      Lexical .number (digits ++ '.' :: places) (.num (Number.ofNumeral digits places))
  | string : '"' ∉ body → Lexical .string ('"' :: body ++ ['"']) (.str (String.ofList body))

/-- The operators that have a longer form, which ends in `=`. -/
def TokenKind.shortOperators : List TokenKind := [bang, equal, less, greater]

/-- What comes after a token of the kind is not more of it. -/
structure Maximal (kind : TokenKind) (text after : List Char) : Prop where
  word : kind ∈ .identifier :: TokenKind.keywords.map Prod.snd →
    ∀ c ∈ after.head?, Piece.continuesWord c = false
  digits : kind = .number → ∀ c ∈ after.head?, c.isDigit = false
  point : kind = .number → '.' ∉ text → ∀ d more, after = '.' :: d :: more → d.isDigit = false
  equals : kind ∈ TokenKind.shortOperators → ∀ c ∈ after.head?, c ≠ '='
  slash : kind = .slash → ∀ c ∈ after.head?, c ≠ '/'

/-- The tile may lie there, and if it is a token, it is one of the grammar and as long as it can be. -/
def Tile.Fits (file : String) (before after : List Char) (tile : Tile) : Prop :=
  tile.Lies file before after ∧ ∀ t ∈ tile.token?,
    Lexical t.kind t.lexeme.toList t.literal ∧ Maximal t.kind t.lexeme.toList after

/-- The tiles cover what comes after `before`, each of them as long as it can be, except for an open string
at the end. -/
inductive LongestMatch (file : String) :
    (before source : List Char) → List Tile → (rest : List Char) → Prop where
  | done : (rest = [] ∨ ∃ body, rest = '"' :: body ∧ '"' ∉ body) → LongestMatch file before rest [] rest
  | tile : tile.Fits file before after → tile.chars ++ after = source →
      LongestMatch file (before ++ tile.chars) after tiles rest →
      LongestMatch file before source (tile :: tiles) rest

theorem Text.isLetter_digit (digit : c.isDigit = true) : isLetter c = false := by
  simp only [Char.isDigit, Bool.and_eq_true, decide_eq_true_eq, ge_iff_le, UInt32.le_iff_toNat_le] at digit
  change 48 ≤ c.toNat ∧ c.toNat ≤ 57 at digit
  have ascii : c.toNat < 0x80 := by omega
  rw [isLetter, if_pos ascii, Bool.eq_false_iff]
  intro letter
  change (decide (65 ≤ c.val ∧ c.val ≤ 90) || decide (97 ≤ c.val) && decide (c.val ≤ 122)) = true at letter
  simp only [Bool.or_eq_true, Bool.and_eq_true, decide_eq_true_eq, UInt32.le_iff_toNat_le] at letter
  change 65 ≤ c.toNat ∧ c.toNat ≤ 90 ∨ 97 ≤ c.toNat ∧ c.toNat ≤ 122 at letter
  omega

namespace Piece

theorem cut_letter (starts : Text.startsWord c = true) (rest : List Char) : cut c rest = cutWord (c :: rest) := by
  have unmarked : c ∉ marks := by
    intro marked
    have plain : marks.all (!Text.startsWord ·) = true := by decide
    have other := List.all_eq_true.mp plain c marked
    rw [starts] at other
    contradiction
  have digit : ¬ c.isDigit = true := by
    intro digit
    rw [Text.startsWord, Text.isLetter_digit digit, Bool.or_false, beq_iff_eq] at starts
    subst starts
    contradiction
  rw [cut_unmarked unmarked, if_neg digit, if_pos starts]

theorem cut_word (starts : Text.startsWord c = true) (inside : ∀ d ∈ more, continuesWord d = true)
    (ends : ∀ d ∈ after.head?, continuesWord d = false) : cut c (more ++ after) = (word (c :: more), after) := by
  have all : ∀ d ∈ c :: more, continuesWord d = true :=
    List.forall_mem_cons.mpr ⟨by simp [continuesWord, starts], inside⟩
  rw [cut_letter starts, ← List.cons_append, cutWord_ends all ends]

theorem cut_numeral (some : whole ≠ []) (digits : ∀ c ∈ whole, c.isDigit = true)
    (places : ∀ c ∈ fraction, c.isDigit = true) (ends : ∀ c ∈ after.head?, c.isDigit = false)
    (point : fraction = [] → ∀ d more, after = '.' :: d :: more → d.isDigit = false) :
    ∃ c more, (numeral whole fraction).chars = c :: more ∧ c.isDigit = true ∧
      cut c (more ++ after) = (numeral whole fraction, after) := by
  obtain ⟨c, later, rfl⟩ := List.exists_cons_of_ne_nil some
  have digit := digits c List.mem_cons_self
  obtain ⟨more, begins⟩ : ∃ more, (numeral (c :: later) fraction).chars = c :: more := by
    cases fraction <;> exact ⟨_, rfl⟩
  refine ⟨c, more, begins, digit, ?_⟩
  rw [cut_digit digit, ← List.cons_append, ← begins, cutNumeral_ends digits places ends point]

end Piece

section Grammar

variable {kind : TokenKind} {text after : List Char} {literal : Value}

theorem TokenKind.symbol_spelling (member : kind ∈ symbols.map Prod.fst) : (kind, kind.spelling) ∈ symbols := by
  have all : symbols.all (fun entry => symbols.contains (entry.1, entry.1.spelling)) = true := by decide
  obtain ⟨entry, listed, rfl⟩ := List.mem_map.mp member
  exact List.contains_iff_mem.mp (List.all_eq_true.mp all entry listed)

/-- Symbols are no words and no numbers. -/
theorem maximal_symbol (member : kind ∈ TokenKind.symbols.map Prod.fst)
    (equals : kind ∈ TokenKind.shortOperators → ∀ c ∈ after.head?, c ≠ '=')
    (slash : kind = .slash → ∀ c ∈ after.head?, c ≠ '/') : Maximal kind text after := by
  have others : (TokenKind.symbols.map Prod.fst).all
      (fun kind => !(.number :: .identifier :: TokenKind.keywords.map Prod.snd).contains kind) = true := by
    decide
  have other : kind ∉ .number :: .identifier :: TokenKind.keywords.map Prod.snd := by
    simpa using List.all_eq_true.mp others kind member
  obtain ⟨number, word⟩ := not_or.mp (mt List.mem_cons.mpr other)
  constructor
  · exact fun found => absurd found word
  · exact fun found => absurd found number
  · exact fun found => absurd found number
  · exact equals
  · exact slash

theorem maximal_word (member : kind ∈ .identifier :: TokenKind.keywords.map Prod.snd)
    (ends : ∀ c ∈ after.head?, Piece.continuesWord c = false) : Maximal kind text after := by
  have others : (.identifier :: TokenKind.keywords.map Prod.snd).all
      (fun kind => !(.number :: .slash :: TokenKind.shortOperators).contains kind) = true := by
    decide
  have other : kind ∉ .number :: .slash :: TokenKind.shortOperators := by
    simpa using List.all_eq_true.mp others kind member
  simp only [List.mem_cons, not_or] at other
  obtain ⟨number, slash, operator⟩ := other
  constructor
  · exact fun _ => ends
  · exact fun found => absurd found number
  · exact fun found => absurd found number
  · exact fun found => absurd found operator
  · exact fun found => absurd found slash

/-- The reserved words are words. -/
theorem TokenKind.keyword_word (member : (word, kind) ∈ keywords) :
    ∃ c more, word.toList = c :: more ∧ Text.startsWord c = true ∧
      (∀ d ∈ more, Piece.continuesWord d = true) ∧ keyword? word = some kind := by
  have all : keywords.all (fun entry => entry.1.toList.head?.any Text.startsWord &&
      entry.1.toList.all Piece.continuesWord && keyword? entry.1 == some entry.2) = true := by decide
  have spelled := List.all_eq_true.mp all _ member
  simp only [Bool.and_eq_true, beq_iff_eq] at spelled
  obtain ⟨⟨starts, inside⟩, means⟩ := spelled
  cases begins : word.toList with
  | nil => simp [begins] at starts
  | cons c more =>
    rw [begins] at starts inside
    rw [List.all_cons, Bool.and_eq_true] at inside
    exact ⟨c, more, rfl, starts, List.all_eq_true.mp inside.2, means⟩

theorem TokenKind.keyword_none (unreserved : ∀ kind, (word, kind) ∉ keywords) : keyword? word = none := by
  refine List.lookup_eq_none_iff.mpr fun entry member => ?_
  rw [bne_iff_ne]
  rintro rfl
  exact unreserved entry.2 member

/-- A token of the grammar is cut off where nothing follows that is more of it. -/
theorem Lexical.cut (lexical : Lexical kind text literal) (maximal : Maximal kind text after) :
    ∃ c more piece, text = c :: more ∧ Piece.cut c (more ++ after) = (piece, after) ∧
      piece.chars = text ∧ piece.meaning? = some (kind, literal) := by
  cases lexical with
  | symbol member =>
    have operator (short long : TokenKind) (c : Char) (cutter : Piece.cut c = Piece.cutOperator short long)
        (ends : ∀ c ∈ after.head?, c ≠ '=') : Piece.cut c after = (.symbol short, after) := by
      rw [cutter, Piece.cutOperator_ends ends]
    have equals := maximal.equals
    have slash := maximal.slash
    simp only [TokenKind.symbols, List.mem_cons, List.not_mem_nil, or_false, Prod.mk.injEq] at member
    rcases member with ⟨rfl, rfl⟩ | ⟨rfl, rfl⟩ | ⟨rfl, rfl⟩ | ⟨rfl, rfl⟩ | ⟨rfl, rfl⟩ | ⟨rfl, rfl⟩ |
      ⟨rfl, rfl⟩ | ⟨rfl, rfl⟩ | ⟨rfl, rfl⟩ | ⟨rfl, rfl⟩ | ⟨rfl, rfl⟩ | ⟨rfl, rfl⟩ | ⟨rfl, rfl⟩ |
      ⟨rfl, rfl⟩ | ⟨rfl, rfl⟩ | ⟨rfl, rfl⟩ | ⟨rfl, rfl⟩ | ⟨rfl, rfl⟩ | ⟨rfl, rfl⟩
    iterate 9 exact ⟨_, _, .symbol _, rfl, rfl, rfl, rfl⟩
    · exact ⟨_, _, .symbol _, rfl, Piece.cutSlash_apart (slash rfl), rfl, rfl⟩
    · exact ⟨_, _, .symbol _, rfl, rfl, rfl, rfl⟩
    iterate 4
      · exact ⟨_, _, .symbol _, rfl, operator _ _ _ rfl (equals (by decide)), rfl, rfl⟩
      · exact ⟨_, _, .symbol _, rfl, rfl, rfl, rfl⟩
  | keyword member =>
    obtain ⟨c, more, begins, starts, inside, means⟩ := TokenKind.keyword_word member
    have ends := maximal.word (List.mem_cons_of_mem _ (List.mem_map_of_mem member))
    refine ⟨c, more, .word (c :: more), begins, Piece.cut_word starts inside ends, begins.symm, ?_⟩
    rw [Piece.meaning?, ← begins, String.ofList_toList, means]
    rfl
  | identifier starts inside unreserved =>
    have ends := maximal.word List.mem_cons_self
    refine ⟨_, _, .word _, rfl, Piece.cut_word starts inside ends, rfl, ?_⟩
    rw [Piece.meaning?, TokenKind.keyword_none unreserved]
    rfl
  | whole some digits =>
    have bare : '.' ∉ text := fun inside => by simpa using digits '.' inside
    obtain ⟨c, more, begins, digit, cut⟩ := Piece.cut_numeral some digits (List.forall_mem_nil _)
      (maximal.digits rfl) fun _ => maximal.point rfl bare
    exact ⟨c, more, _, begins, cut, rfl, rfl⟩
  | fraction some digits further places =>
    obtain ⟨c, more, begins, digit, cut⟩ := Piece.cut_numeral some digits places
      (maximal.digits rfl) fun none => absurd none further
    obtain ⟨d, later, rfl⟩ := List.exists_cons_of_ne_nil further
    exact ⟨c, _, _, begins, cut, rfl, rfl⟩
  | string inside =>
    refine ⟨'"', _, .string _, rfl, ?_, rfl, rfl⟩
    change Piece.cutString (_ ++ ['"'] ++ after) = _
    rw [List.append_assoc]
    exact Piece.cutString_again _ after inside

theorem fits_symbol {named : TokenKind} (meaning : (Piece.symbol named).meaning? = some (kind, literal))
    (member : named ∈ TokenKind.symbols.map Prod.fst)
    (equals : named ∈ TokenKind.shortOperators → ∀ c ∈ after.head?, c ≠ '=')
    (slash : named = .slash → ∀ c ∈ after.head?, c ≠ '/') :
    Lexical kind (Piece.symbol named).chars literal ∧ Maximal kind (Piece.symbol named).chars after := by
  obtain ⟨rfl, rfl⟩ := Prod.mk.inj (Option.some.inj meaning)
  exact ⟨.symbol (TokenKind.symbol_spelling member), maximal_symbol member equals slash⟩

theorem fits_operator {short long : TokenKind} {rest : List Char}
    (meaning : (Piece.cutOperator short long rest).1.meaning? = some (kind, literal))
    (members : short ∈ TokenKind.symbols.map Prod.fst ∧ long ∈ TokenKind.symbols.map Prod.fst)
    (plain : short ≠ .slash ∧ long ∉ .slash :: TokenKind.shortOperators) :
    Lexical kind (Piece.cutOperator short long rest).1.chars literal ∧
      Maximal kind (Piece.cutOperator short long rest).1.chars (Piece.cutOperator short long rest).2 := by
  by_cases next : rest.head? = some '='
  · obtain ⟨rest, rfl⟩ := List.head?_eq_some_iff.mp next
    obtain ⟨slash, operator⟩ := not_or.mp (mt List.mem_cons.mpr plain.2)
    exact fits_symbol meaning members.2 (fun found => absurd found operator) fun found => absurd found slash
  · have ends : ∀ c ∈ rest.head?, c ≠ '=' := by
      rintro c first rfl
      exact next first
    rw [Piece.cutOperator_ends ends] at meaning ⊢
    exact fits_symbol meaning members.1 (fun _ => ends) fun found => absurd found plain.1

theorem fits_word {c : Char} {rest : List Char} (starts : Text.startsWord c = true)
    (meaning : (Piece.cutWord (c :: rest)).1.meaning? = some (kind, literal)) :
    Lexical kind (Piece.cutWord (c :: rest)).1.chars literal ∧
      Maximal kind (Piece.cutWord (c :: rest)).1.chars (Piece.cutWord (c :: rest)).2 := by
  have further : Piece.continuesWord c = true := by simp [Piece.continuesWord, starts]
  have taken : (c :: rest).takeWhile Piece.continuesWord = c :: rest.takeWhile Piece.continuesWord :=
    List.takeWhile_cons_of_pos further
  have inside : ∀ d ∈ rest.takeWhile Piece.continuesWord, Piece.continuesWord d = true :=
    fun d member => List.mem_takeWhile_imp member
  have ends := Piece.dropWhile_ends Piece.continuesWord (c :: rest)
  unfold Piece.cutWord at meaning ⊢
  dsimp only at ends ⊢
  rw [taken] at meaning ⊢
  obtain ⟨rfl, rfl⟩ := Prod.mk.inj (Option.some.inj meaning)
  refine ⟨?_, maximal_word (TokenKind.keyword_mem _) ends⟩
  cases found : TokenKind.keyword? (String.ofList (c :: rest.takeWhile Piece.continuesWord)) with
  | none =>
    refine .identifier starts inside fun kind member => ?_
    have absent := List.lookup_eq_none_iff.mp found _ member
    simp at absent
  | some kind =>
    obtain ⟨earlier, later, same, _⟩ := List.lookup_eq_some_iff.mp found
    have member : (String.ofList (c :: rest.takeWhile Piece.continuesWord), kind) ∈ TokenKind.keywords := by
      simp [same]
    simpa [Piece.chars] using Lexical.keyword member

theorem maximal_number (ends : ∀ c ∈ after.head?, c.isDigit = false)
    (point : '.' ∉ text → ∀ d more, after = '.' :: d :: more → d.isDigit = false) :
    Maximal .number text after := by
  constructor
  · exact fun found => absurd found (by decide)
  · exact fun _ => ends
  · exact fun _ => point
  · exact fun found => absurd found (by decide)
  · exact fun found => absurd found (by decide)

theorem fits_numeral {c : Char} {rest : List Char} (digit : c.isDigit = true)
    (meaning : (Piece.cutNumeral (c :: rest)).1.meaning? = some (kind, literal)) :
    Lexical kind (Piece.cutNumeral (c :: rest)).1.chars literal ∧
      Maximal kind (Piece.cutNumeral (c :: rest)).1.chars (Piece.cutNumeral (c :: rest)).2 := by
  have nonempty : (c :: rest).takeWhile Char.isDigit ≠ [] := by simp [digit]
  have digits {input : List Char} : ∀ d ∈ input.takeWhile Char.isDigit, d.isDigit = true :=
    fun d member => List.mem_takeWhile_imp member
  have stops {input : List Char} : ∀ d ∈ (input.dropWhile Char.isDigit).head?, d.isDigit = false :=
    Piece.dropWhile_ends Char.isDigit input
  unfold Piece.cutNumeral at meaning ⊢
  dsimp only at meaning ⊢
  split at meaning
  case h_1 d more left =>
    split at meaning
    case isTrue place =>
      obtain ⟨rfl, rfl⟩ := Prod.mk.inj (Option.some.inj meaning)
      rw [if_pos place]
      refine ⟨.fraction nonempty digits (List.cons_ne_nil _ _) ?_, maximal_number stops ?_⟩
      · exact List.forall_mem_cons.mpr ⟨place, digits⟩
      · intro bare
        simp [Piece.chars] at bare
    case isFalse other =>
      obtain ⟨rfl, rfl⟩ := Prod.mk.inj (Option.some.inj meaning)
      rw [if_neg other]
      refine ⟨.whole nonempty digits, maximal_number (fun e first => ?_) fun _ e later same => ?_⟩
      · obtain rfl := Option.some.inj first
        rfl
      · obtain rfl : d = e := by simpa using (List.cons.inj (List.cons.inj same).2).1
        simpa using other
  case h_2 none =>
    obtain ⟨rfl, rfl⟩ := Prod.mk.inj (Option.some.inj meaning)
    exact ⟨.whole nonempty digits, maximal_number stops fun _ d more left => absurd left (none d more)⟩

theorem fits_slash {rest : List Char} (meaning : (Piece.cutSlash rest).1.meaning? = some (kind, literal)) :
    Lexical kind (Piece.cutSlash rest).1.chars literal ∧
      Maximal kind (Piece.cutSlash rest).1.chars (Piece.cutSlash rest).2 := by
  by_cases next : rest.head? = some '/'
  · obtain ⟨rest, rfl⟩ := List.head?_eq_some_iff.mp next
    cases meaning
  · have ends : ∀ d ∈ rest.head?, d ≠ '/' := by
      rintro d first rfl
      exact next first
    rw [Piece.cutSlash_apart ends] at meaning ⊢
    exact fits_symbol meaning (by decide) (by simp [TokenKind.shortOperators]) fun _ => ends

theorem fits_string {rest : List Char} (meaning : (Piece.cutString rest).1.meaning? = some (kind, literal)) :
    Lexical kind (Piece.cutString rest).1.chars literal ∧
      Maximal kind (Piece.cutString rest).1.chars (Piece.cutString rest).2 := by
  cases left : rest.dropWhile (· != '"') with
  | nil =>
    simp only [Piece.cutString, left] at meaning
    cases meaning
  | cons d after =>
    rw [Piece.cutString_closed left] at meaning ⊢
    obtain ⟨rfl, rfl⟩ := Prod.mk.inj (Option.some.inj meaning)
    have inside : '"' ∉ rest.takeWhile (· != '"') := by
      intro member
      simpa using List.mem_takeWhile_imp member
    refine ⟨.string inside, ?_⟩
    constructor <;> intro found <;> exact absurd found (by decide)

/-- A token that is cut off lies in the grammar, and what is left is not more of it. -/
theorem Piece.cut_fits {c : Char} {rest : List Char} (meaning : (cut c rest).1.meaning? = some (kind, literal)) :
    Lexical kind (cut c rest).1.chars literal ∧ Maximal kind (cut c rest).1.chars (cut c rest).2 := by
  -- `Cutter` does not tell a symbol from the short form of an operator, so the marks are gone through again.
  by_cases marked : c ∈ marks
  · simp only [marks, List.mem_cons, List.not_mem_nil, or_false] at marked
    rcases marked with rfl | rfl | rfl | rfl | rfl | rfl | rfl | rfl | rfl | rfl | rfl | rfl | rfl |
      rfl | rfl | rfl | rfl | rfl | rfl | rfl
    iterate 4 cases meaning
    iterate 10 exact fits_symbol meaning (by decide) (by simp [TokenKind.shortOperators]) (by simp)
    iterate 4 exact fits_operator meaning (by decide) (by decide)
    · exact fits_slash meaning
    · exact fits_string meaning
  · rw [cut_unmarked marked] at meaning ⊢
    split at meaning
    case isTrue digit =>
      rw [if_pos digit]
      exact fits_numeral digit meaning
    case isFalse other =>
      rw [if_neg other]
      split at meaning
      case isTrue starts =>
        rw [if_pos starts]
        exact fits_word starts meaning
      case isFalse => cases meaning

end Grammar

/-- The tile of a piece that begins after `start`; none for an open string. -/
def Piece.tile? (start : Position) : Piece → Option Tile
  | blank c => some (.blank c)
  | comment body => some (.comment body)
  | stray c => some (.stray c)
  | piece => (piece.token? start).map .token

namespace Piece

theorem tile?_eq {piece : Piece} (made : piece.tile? start = some tile) :
    piece.Closed ∧ tile.chars = piece.chars ∧ tile.token? = piece.token? start := by
  refine ⟨fun body found => ?_, ?_⟩
  · rw [found] at made
    cases made
  · cases piece with
    | openString body => cases made
    | _ =>
      obtain rfl := Option.some.inj made
      exact ⟨by simp [Tile.chars, chars], rfl⟩

theorem tile?_token {piece : Piece} (meaning : piece.meaning? = some m) (start : Position) :
    piece.tile? start = (piece.token? start).map .token := by
  cases piece with
  | blank | comment | stray => cases meaning
  | _ => rfl

theorem cut_stray (between : c ∉ blanks) (other : startsToken c = false) (rest : List Char) :
    cut c rest = (stray c, rest) := by
  have unmarked : c ∉ marks := by
    intro marked
    have covered : marks.all (fun c => blanks.contains c || startsToken c) = true := by decide
    have known := List.all_eq_true.mp covered c marked
    simp [between, other] at known
  unfold startsToken at other
  simp only [Bool.or_eq_false_iff] at other
  rw [cut_unmarked unmarked, other.1.2, other.2]
  rfl

theorem cut_inline (meaning : (cut c rest).1.meaning? = some m) : c ≠ '\n' := by
  rintro rfl
  cases meaning

end Piece

section Tiles

variable {file : String} {before after source rest : List Char} {tile : Tile} {tiles : List Tile}

/-- A tile that fits is the one of the piece that is cut off there. -/
theorem Tile.Fits.cut (fits : tile.Fits file before after) :
    ∃ c more piece, tile.chars ++ after = c :: more ∧ Piece.cut c more = (piece, after) ∧
      piece.tile? (.last file before) = some tile := by
  obtain ⟨lies, longest⟩ := fits
  cases tile with
  | blank c => exact ⟨c, after, .blank c, rfl, Piece.cut_blank lies after, rfl⟩
  | comment body => exact ⟨'/', _, .comment body, rfl, Piece.cut_comment lies.1 lies.2, rfl⟩
  | stray c => exact ⟨c, after, .stray c, rfl, Piece.cut_stray lies.1 lies.2 after, rfl⟩
  | token t =>
    obtain ⟨lexical, maximal⟩ := longest t rfl
    obtain ⟨c, more, piece, begins, cut, spelled, meaning⟩ := lexical.cut maximal
    refine ⟨c, more ++ after, piece, by rw [Tile.chars, begins, List.cons_append], cut, ?_⟩
    have inline : c ≠ '\n' := Piece.cut_inline (by rw [cut, meaning])
    have place : piece.place (.last file before) = t.position :=
      (Piece.place_last (spelled.trans begins) inline).trans lies.2.2.symm
    rw [Piece.tile?_token meaning, Piece.token?, meaning, Option.map_some, spelled, place, String.ofList_toList]
    rfl

/-- Where a tile fits, something is left, and it does not begin with an open string. -/
theorem Tile.Fits.read (fits : tile.Fits file before after) :
    ¬ (tile.chars ++ after = [] ∨ ∃ body, tile.chars ++ after = '"' :: body ∧ '"' ∉ body) := by
  obtain ⟨c, more, piece, begins, cut, made⟩ := fits.cut
  rw [begins]
  rintro (none | ⟨body, quote, unclosed⟩)
  · cases none
  · obtain ⟨rfl, rfl⟩ := List.cons.inj quote
    rw [Piece.cut_unclosed unclosed] at cut
    obtain ⟨rfl, -⟩ := Prod.mk.inj cut
    cases made

/-- Scanning takes a tile that fits and goes on after it. -/
theorem Tile.Fits.collect (fits : tile.Fits file before after) :
    (Scanner.collect none (.last file before) (pieces (tile.chars ++ after))).1 =
      tile.token?.toList ++
        (Scanner.collect none (.last file (before ++ tile.chars)) (pieces after)).1 := by
  obtain ⟨c, more, piece, begins, cut, made⟩ := fits.cut
  obtain ⟨closed, spelled, token⟩ := Piece.tile?_eq made
  rw [begins, pieces, cut, Scanner.collect_cons _ _ _ closed, Position.last_after, ← spelled, ← token]

namespace LongestMatch

/-- The tokens of tiles that are each as long as they can be are those that scanning gives. -/
theorem tokens (covered : LongestMatch file before source tiles rest) :
    (Scanner.collect none (.last file before) (pieces source)).1 =
      tiles.filterMap Tile.token? ++ [endToken (.last file (before ++ source))] := by
  induction covered with
  | done unread =>
    rcases unread with rfl | ⟨body, rfl, unclosed⟩
    · exact (tiled_nil file _).tokens
    · exact (tiled_open file _ unclosed).tokens
  | tile fits joined _ ih =>
    subst joined
    rw [fits.collect, ih, List.append_assoc, List.filterMap_cons]
    cases Tile.token? _ <;> rfl

/-- There is one way only to cover a source. -/
theorem unique (first : LongestMatch file before source tiles rest)
    (second : LongestMatch file before source others left) : others = tiles ∧ left = rest := by
  induction first generalizing others with
  | done unread =>
    cases second with
    | done => exact ⟨rfl, rfl⟩
    | tile fits joined => exact absurd (joined ▸ unread) fits.read
  | tile fits joined _ ih =>
    cases second with
    | done unread => exact absurd (joined ▸ unread) fits.read
    | tile again joined' later =>
      -- Both tiles are the one of the piece that is cut off here, and what is cut off is a function.
      obtain ⟨c, more, piece, begins, cut, made⟩ := fits.cut
      obtain ⟨c', more', piece', begins', cut', made'⟩ := again.cut
      obtain ⟨rfl, rfl⟩ := List.cons.inj (begins.symm.trans (joined.trans (joined'.symm.trans begins')))
      obtain ⟨rfl, rfl⟩ := Prod.mk.inj (cut.symm.trans cut')
      obtain rfl := Option.some.inj (made.symm.trans made')
      obtain ⟨rfl, rfl⟩ := ih later
      exact ⟨rfl, rfl⟩

end LongestMatch

theorem longestMatch_exists (file : String) (before source : List Char) :
    ∃ tiles rest, LongestMatch file before source tiles rest := by
  fun_induction pieces source generalizing before with
  | case1 => exact ⟨[], [], .done (.inl rfl)⟩
  | case2 c rest ih =>
    rcases Scanner.closed_or_open (Piece.cut c rest).1 with closed | ⟨body, found⟩
    · obtain ⟨tile, laid⟩ := Piece.cut_laid file before c rest closed
      obtain ⟨tiles, unread, below⟩ := ih (before ++ tile.chars)
      refine ⟨tile :: tiles, unread, .tile ⟨laid.lies, fun t made => ?_⟩ ?_ below⟩
      · rw [laid.token_eq, Piece.token?] at made
        obtain ⟨meaning, means, rfl⟩ := Option.map_eq_some_iff.mp made
        simpa only [String.toList_ofList] using Piece.cut_fits means
      · rw [laid.chars_eq, Piece.cut_chars]
    · obtain ⟨rfl, rfl, _, unclosed⟩ := Piece.cut_open found
      exact ⟨[], _, .done (.inr ⟨_, rfl, unclosed⟩)⟩

end Tiles

/-- Scanning lays a source out in tokens of the lexical grammar, each as long as it can be, and in what lies
between them. Whatever lays the source out that way gives the same tokens, between the same gaps. -/
theorem scan_longest_match (file : String) (bytes : List UInt8) :
    ∃ tiles rest, LongestMatch file [] (Text.decodeUtf8 bytes) tiles rest ∧
      (scan file (Text.decodeUtf8 bytes)).1 =
        tiles.filterMap Tile.token? ++ [endToken (.last file (Text.decodeUtf8 bytes))] ∧
      ∀ others left, LongestMatch file [] (Text.decodeUtf8 bytes) others left →
        others = tiles ∧ left = rest := by
  obtain ⟨tiles, rest, covered⟩ := longestMatch_exists file [] (Text.decodeUtf8 bytes)
  exact ⟨tiles, rest, covered, covered.tokens, fun _ _ => covered.unique⟩

/-- Strings are not the only tokens with a literal. -/
theorem scan_literal_of_number :
    ∃ t ∈ (scan "" (Text.decodeUtf8 "7".toUTF8.toList)).1, t.kind ≠ .string ∧ t.literal ≠ .nil := by
  have source : Text.decodeUtf8 "7".toUTF8.toList = ['7'] := by decide +kernel
  have digits : ∀ c ∈ ['7'], c.isDigit = true := List.forall_mem_singleton.mpr rfl
  obtain ⟨t, stop, number, literal, scans⟩ := Scans.of_numeral (.start "") (List.cons_ne_nil '7' []) digits
    (List.forall_mem_nil _) (by decide +kernel) (by simp [Apart] : Apart [])
  refine ⟨t, ?_, by simp [number], by simp [literal]⟩
  rw [source]
  exact (congrArg (t ∈ ·.1) scans.scan_eq).mpr List.mem_cons_self

end LoxLang
