import LoxLang.Proofs.NumberText
import LoxLang.Proofs.Scanner.LongestMatch
import LoxLang.Proofs.Splitting
import LoxLang.Proofs.Tree.Shape

/-! A program without strings can be told from its printed tree. What is scanned without strings is legible:
identifiers are words that are not reserved, operators are marks, and the text of a number begins with a digit or
a plus sign. So what is parsed from it is legible, and its printed tree is that of no program of another shape. -/
namespace LoxLang

theorem LongestMatch.lexical (covered : LongestMatch file before source tiles rest)
    (member : t ∈ tiles.filterMap Tile.token?) : Lexical t.kind t.lexeme.toList t.literal := by
  induction covered with
  | done => contradiction
  | tile fits _ _ ih =>
    obtain ⟨tile, among, made⟩ := List.mem_filterMap.mp member
    rcases List.mem_cons.mp among with rfl | later
    · exact (fits.2 t made).1
    · exact ih (List.mem_filterMap.mpr ⟨tile, later, made⟩)

theorem scan_lexical (member : t ∈ (scan file source).1) (kind : t.kind ≠ .eof) :
    Lexical t.kind t.lexeme.toList t.literal := by
  obtain ⟨tiles, rest, covered⟩ := longestMatch_exists file [] source
  have among : t ∈ tiles.filterMap Tile.token? ++ [endToken (.last file source)] := covered.tokens ▸ member
  rcases List.mem_append.mp among with laid | last
  · exact covered.lexical laid
  · obtain rfl := List.mem_singleton.mp last
    exact absurd rfl kind

/-- Identifiers and numbers are neither symbols nor reserved words. -/
theorem TokenKind.classes_apart {kind : TokenKind} (either : kind = .identifier ∨ kind = .number) :
    (∀ text, (kind, text) ∉ symbols) ∧ ∀ word, (word, kind) ∉ keywords := by
  rcases either with rfl | rfl <;> simp [symbols, keywords]

namespace Lexical

theorem isName (lexical : Lexical kind text literal) (identifier : kind = .identifier) :
    IsName (String.ofList text) := by
  cases lexical with
  | symbol member => exact absurd member ((TokenKind.classes_apart (.inl identifier)).1 _)
  | keyword member => exact absurd member ((TokenKind.classes_apart (.inl identifier)).2 _)
  | identifier starts inside unreserved =>
    exact ⟨⟨_, _, String.toList_ofList, starts, inside⟩, unreserved⟩
  | whole | fraction | string => contradiction

/-- Operators, which are the symbols other than punctuation, are marks. -/
theorem isMark (lexical : Lexical kind text literal) (operator : kind = .bang ∨ 0 < kind.precedence) :
    IsMark (String.ofList text) := by
  cases lexical with
  | symbol member =>
    have marks : ∀ p ∈ TokenKind.symbols, (p.1 = .bang ∨ 0 < p.1.precedence) →
        p.2 ≠ [] ∧ p.2.all (fun c => c ∉ Form.delimiters ∧ Text.startsWord c = false) = true := by
      decide +kernel
    obtain ⟨nonempty, all⟩ := marks _ member operator
    simp only [List.all_eq_true, decide_eq_true_eq] at all
    refine ⟨⟨?_, ?_⟩, ?_⟩
    · rwa [String.toList_ofList]
    · rw [String.toList_ofList]
      exact fun c inside => (all c inside).1
    · rw [String.toList_ofList]
      exact fun c first => (all c (List.mem_of_mem_head? first)).2
  | keyword member =>
    have other : ∀ p ∈ TokenKind.keywords, ¬ (p.2 = .bang ∨ 0 < p.2.precedence) := by decide
    exact absurd operator (other _ member)
  | identifier | whole | fraction | string => exact absurd operator (by decide)

theorem number (lexical : Lexical kind text literal) (numeral : kind = .number) :
    ∃ whole fraction, literal = .num (Number.ofNumeral whole fraction) := by
  cases lexical with
  | symbol member => exact absurd member ((TokenKind.classes_apart (.inr numeral)).1 _)
  | keyword member => exact absurd member ((TokenKind.classes_apart (.inr numeral)).2 _)
  | whole | fraction => exact ⟨_, _, rfl⟩
  | identifier | string => contradiction

end Lexical

theorem digit_mark (digit : c.isDigit = true) : c ∉ Form.delimiters ∧ Text.startsWord c = false := by
  constructor
  · intro delimiter
    simpa [Piece.continuesWord, digit] using delimiter_continues delimiter
  · have other : c ≠ '_' := by
      rintro rfl
      contradiction
    simp [Text.startsWord, Text.isLetter_digit digit, other]

theorem isMark_number (whole fraction : List Char) : IsMark (Number.text (Number.ofNumeral whole fraction)) := by
  obtain ⟨c, more, spelled, first, rest⟩ := Number.text_begins whole fraction
  have first_mark : c ∉ Form.delimiters ∧ Text.startsWord c = false := by
    rcases first with digit | rfl
    · exact digit_mark digit
    · decide +kernel
  have undivided : ∀ d ∈ more, d ∉ Form.delimiters := by
    intro d member
    rcases rest d member with digit | other
    · exact (digit_mark digit).1
    · simp only [List.mem_cons, List.not_mem_nil, or_false] at other
      rcases other with rfl | rfl | rfl | rfl <;> decide
  refine ⟨⟨by simp [spelled], ?_⟩, ?_⟩
  · rw [spelled]
    exact List.forall_mem_cons.mpr ⟨first_mark.1, undivided⟩
  · rw [spelled]
    simpa using first_mark.2

theorem reserved_not_name (kind : TokenKind) (member : (text, kind) ∈ TokenKind.keywords) : ¬ IsName text :=
  fun name => name.unreserved kind member

namespace Token

/-- The token lies in the lexical grammar and is no string. -/
def Stringless (t : Token) : Prop :=
  Lexical t.kind t.lexeme.toList t.literal ∧ t.kind ≠ .string

namespace Stringless

variable {t : Token} (stringless : t.Stringless)
include stringless

theorem isName (identifier : t.kind = .identifier) : IsName t.lexeme := by
  have name := stringless.1.isName identifier
  rwa [String.ofList_toList] at name

theorem isMark (operator : t.kind = .bang ∨ 0 < t.kind.precedence) : IsMark t.lexeme := by
  have mark := stringless.1.isMark operator
  rwa [String.ofList_toList] at mark

/-- What a literal is printed as is a word and no identifier. -/
theorem constant (constant : t.constant? = some value) :
    ∃ text, value.text? = some text ∧ Form.Word text ∧ ¬ IsName text := by
  unfold constant? at constant
  split at constant
  case h_1 =>
    obtain rfl := Option.some.inj constant
    exact ⟨"false", rfl, by decide +kernel, reserved_not_name .falseWord (by decide)⟩
  case h_2 =>
    obtain rfl := Option.some.inj constant
    exact ⟨"true", rfl, by decide +kernel, reserved_not_name .trueWord (by decide)⟩
  case h_3 =>
    obtain rfl := Option.some.inj constant
    exact ⟨"nil", rfl, by decide +kernel, reserved_not_name .nilWord (by decide)⟩
  case h_4 numeral =>
    obtain ⟨whole, fraction, literal⟩ := stringless.1.number numeral
    rw [literal] at constant
    obtain rfl := Option.some.inj constant
    have mark := isMark_number whole fraction
    exact ⟨_, rfl, mark.word, mark.not_name⟩
  case h_5 string => exact absurd string stringless.2
  case h_6 => contradiction

end Stringless

end Token

theorem Expr.Canonical.legible {e : Expr} (canonical : e.Canonical)
    (stringless : ∀ t, Leaf.kept t ∈ e.yield → t.Stringless) : e.Legible := by
  induction e using Expr.inductionOn with
  | missing => exact canonical.elim
  | literal value token => exact (stringless token (by simp [yield])).constant canonical
  | grouping inner ih => exact ih canonical fun t kept => stringless t (by simp [yield, kept])
  | unary operator right ih =>
    obtain ⟨kind, _, right_canonical⟩ := canonical
    have mark : operator.kind = .bang ∨ 0 < operator.kind.precedence :=
      kind.imp_right fun minus => by simp [minus, TokenKind.precedence]
    exact ⟨(stringless operator (by simp [yield])).isMark mark,
      ih right_canonical fun t kept => stringless t (by simp [yield, kept])⟩
  | binary left operator right left_ih right_ih =>
    obtain ⟨infixed, _, _, left_canonical, right_canonical⟩ := canonical
    exact ⟨(stringless operator (by simp [yield])).isMark (.inr infixed),
      left_ih left_canonical fun t kept => stringless t (by simp [yield, kept]),
      right_ih right_canonical fun t kept => stringless t (by simp [yield, kept])⟩
  | var name => exact (stringless name (by simp [yield])).isName canonical
  | assign name value ih =>
    exact ⟨(stringless name (by simp [yield])).isName canonical.1,
      ih canonical.2 fun t kept => stringless t (by simp [yield, kept])⟩
  | call callee paren arguments callee_ih arguments_ih =>
    obtain ⟨_, _, _, callee_canonical, arguments_canonical⟩ := canonical
    refine ⟨callee_ih callee_canonical fun t kept => stringless t (by simp [yield, kept]), ?_⟩
    refine legibleAll_iff.mpr fun e member => ?_
    refine arguments_ih e member (canonicalAll_iff.mp arguments_canonical e member) fun t kept => ?_
    exact stringless t (by simp [yield, mem_yieldArguments member kept])

theorem Stmt.Canonical.legible {s : Stmt} (canonical : s.Canonical declares)
    (stringless : ∀ t, Leaf.kept t ∈ s.yield → t.Stringless) : s.Legible := by
  induction s using Stmt.inductionOn generalizing declares with
  | missing | bad => exact canonical.elim
  | expression e | print e =>
    exact Expr.Canonical.legible canonical fun t kept => stringless t (by simp [yield, kept])
  | declare name => exact (stringless name (by simp [yield])).isName canonical.2
  | define name e =>
    exact ⟨(stringless name (by simp [yield])).isName canonical.2.1,
      canonical.2.2.legible fun t kept => stringless t (by simp [yield, kept])⟩
  | block brace body ih =>
    refine legibleAll_iff.mpr fun s member => ?_
    refine ih s member (canonicalAll_iff.mp canonical.2 s member) fun t kept => ?_
    have inside : Leaf.kept t ∈ yieldAll body := mem_yieldAll.mpr ⟨s, member, kept⟩
    exact stringless t (by simp [yield, inside])
  | ifThen condition thenBranch ih =>
    exact ⟨canonical.1.legible fun t kept => stringless t (by simp [yield, kept]),
      ih canonical.2 fun t kept => stringless t (by simp [yield, kept])⟩
  | ifElse condition thenBranch elseBranch then_ih else_ih =>
    obtain ⟨condition_canonical, then_canonical, _, else_canonical⟩ := canonical
    exact ⟨condition_canonical.legible fun t kept => stringless t (by simp [yield, kept]),
      then_ih then_canonical fun t kept => stringless t (by simp [yield, kept]),
      else_ih else_canonical fun t kept => stringless t (by simp [yield, kept])⟩
  | loop condition body ih =>
    exact ⟨canonical.1.legible fun t kept => stringless t (by simp [yield, kept]),
      ih canonical.2 fun t kept => stringless t (by simp [yield, kept])⟩

section Programs

variable {limit limit' : Nat} {file file' : String} {source source' : List Char}

theorem parse_legible (clean : (parse limit file source).diagnostics = [])
    (stringless : ∀ t ∈ (scan file source).1, t.kind ≠ .string) :
    ∀ s ∈ (parse limit file source).program, s.Legible := by
  obtain ⟨_, accepted⟩ := parse_clean clean
  obtain ⟨tokens, stop, scanned, bare⟩ := scan_ends file source
  have all : Stmt.CanonicalAll (parse limit file source).program := by
    rw [scanned] at accepted
    have read : (parse limit file source).program = (parseTokens limit (tokens ++ [endToken stop])).1 := by
      rw [← scanned]
      rfl
    rw [read]
    exact ((parseTokens_clean bare rfl).mp (Prod.ext rfl accepted)).1
  intro s member
  have canonical := Stmt.canonicalAll_iff.mp all s member
  rcases mem_parseTokens member with ⟨start, e, rfl⟩ | ⟨_, kept⟩
  · exact canonical.elim
  · refine canonical.legible fun t leaf => ⟨scan_lexical (kept t leaf) (canonical.bare _ leaf), ?_⟩
    exact stringless t (kept t leaf)

theorem printProgram_forms {program : List Stmt} (legible : ∀ s ∈ program, s.Legible) :
    printProgram program = .ok (String.ofList (Form.renderLines (program.map Stmt.form))) := by
  rw [printProgram, Stmt.printedAll_forms fun s member => (legible s member).printed_eq, Stmt.formAll_eq,
    ← Form.text_lines]
  rfl

/-- The text of a legible program is that of no legible program of another shape. -/
theorem printProgram_eq_iff {first second : List Stmt} (here : ∀ s ∈ first, s.Legible)
    (there : ∀ s ∈ second, s.Legible) :
    printProgram first = printProgram second ↔ List.Forall₂ Stmt.SameShape first second := by
  rw [printProgram_forms here, printProgram_forms there,
    ← map_eq_iff_forall₂ fun s member r member' => (here s member).form_eq_iff (there r member')]
  constructor
  · intro same
    refine Form.renderLines_injective ?_ ?_ (String.ofList_injective (Except.ok.inj same))
    · exact List.forall_mem_map.mpr fun s member => (here s member).form_legible
    · exact List.forall_mem_map.mpr fun s member => (there s member).form_legible
  · intro same
    rw [same]

/-- The printed tree determines the program. Programs that are parsed without complaint from sources without
strings can be printed, and they are printed alike just when they have the same shape, statement by statement;
then they have the same number of statements. -/
theorem printed_tree_determines_program (clean : (parse limit file source).diagnostics = [])
    (clean' : (parse limit' file' source').diagnostics = [])
    (stringless : ∀ t ∈ (scan file source).1, t.kind ≠ .string)
    (stringless' : ∀ t ∈ (scan file' source').1, t.kind ≠ .string) :
    (∃ text, printProgram (parse limit file source).program = .ok text) ∧
    (printProgram (parse limit file source).program = printProgram (parse limit' file' source').program ↔
      List.Forall₂ Stmt.SameShape (parse limit file source).program (parse limit' file' source').program) ∧
    (printProgram (parse limit file source).program = printProgram (parse limit' file' source').program →
      (parse limit file source).program.length = (parse limit' file' source').program.length) := by
  have here := parse_legible clean stringless
  have there := parse_legible clean' stringless'
  have alike := printProgram_eq_iff here there
  exact ⟨⟨_, printProgram_forms here⟩, alike, fun same => (alike.mp same).length_eq⟩

end Programs

/-- Neither the places of tokens nor the spelling of a number shows in the tree. -/
theorem printed_tree_determines_program_respaced :
    let source := "var a = -1.50; if (a) print a; else f(a, (2));".toList
    let respaced := "var a=-1.5;\nif (a) print a;\nelse f(a,(2.0));".toList
    printProgram (parse 9 "" source).program = printProgram (parse 8 "x" respaced).program ∧
    List.Forall₂ Stmt.SameShape (parse 9 "" source).program (parse 8 "x" respaced).program := by
  intro source respaced
  have clean : (parse 9 "" source).diagnostics = [] := List.isEmpty_iff.mp (by decide +kernel)
  have clean' : (parse 8 "x" respaced).diagnostics = [] := List.isEmpty_iff.mp (by decide +kernel)
  have same : printProgram (parse 9 "" source).program = printProgram (parse 8 "x" respaced).program := by
    decide +kernel
  exact ⟨same, (printed_tree_determines_program clean clean' (by decide +kernel) (by decide +kernel)).2.1.mp same⟩

end LoxLang
