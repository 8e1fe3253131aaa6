import LoxLang.Proofs.Arithmetic
import LoxLang.Proofs.Number.Rendering
import LoxLang.Proofs.Scanner.LongestMatch

/-! Printing a numeral. A numeral of moderate size with at most six decimals is read as a double that is nearer to
it than half a step, so rounding to steps gives the numeral back. The same goes for whole numbers that are doubles
themselves. What is printed is then the numeral without the zeros that say nothing, and is read as the same double. -/
namespace LoxLang

namespace Number

/-! From a quotient to a double, and from there to steps. -/

/-- A quotient below `10 ^ 9` is read with an error of at most `2 ^ -24`, which is less than half a step. -/
theorem steps_nearest {num den n : Nat} (positive : 0 < den) (whole : num * 10 ^ places = n * den)
    (small : num < den * 10 ^ 9) : nearest num den < infinity ∧ steps (nearest num den) = n := by
  have below : num * one < den * 2 ^ 1104 := by
    have power : 10 ^ 9 * one ≤ 2 ^ 1104 := by decide +kernel
    calc num * one < den * 10 ^ 9 * one := Nat.mul_lt_mul_of_pos_right small one_pos
      _ ≤ den * 2 ^ 1104 := by
        rw [Nat.mul_assoc]
        exact Nat.mul_le_mul_left den power
  have last : shiftOf (num * one) den ≤ 1051 := shiftOf_le below
  have finite : shiftOf (num * one) den < 2045 := Nat.lt_of_le_of_lt last (by decide)
  refine ⟨nearest_lt_infinity positive finite, ?_⟩
  have error := nearest_error positive finite
  have place : 2 ^ 23 * 2 ^ shiftOf (num * one) den ≤ one := by
    rw [← Nat.pow_add]
    exact Nat.le_of_dvd one_pos (two_pow_dvd_one (by omega))
  rw [steps, Nat.pow_eq]
  apply roundQuotient_eq
  have weight : (0 : ℤ) < den := by exact_mod_cast positive
  have scaled : 2 * (((units (nearest num den) * 10 ^ places : ℕ) : ℤ) - n * one) * den =
      -(10 ^ places) * (2 * (((num * one : ℕ) : ℤ) - units (nearest num den) * den)) := by
    have equal : (num : ℤ) * 10 ^ places = n * den := by exact_mod_cast whole
    push_cast
    linear_combination (2 * (one : ℤ)) * equal
  have bound : |2 * (((units (nearest num den) * 10 ^ places : ℕ) : ℤ) - n * one)| * den ≤
      10 ^ places * 2 ^ shiftOf (num * one) den * den := by
    calc _ = |(10 : ℤ) ^ places| * |2 * (((num * one : ℕ) : ℤ) - units (nearest num den) * den)| := by
          rw [← abs_of_pos weight, ← abs_mul, abs_of_pos weight, scaled, abs_mul, abs_neg]
      _ ≤ 10 ^ places * (den * 2 ^ shiftOf (num * one) den) := by
          rw [abs_of_pos (by positivity)]
          exact mul_le_mul_of_nonneg_left error (by positivity)
      _ = _ := by ring
  have steps_lt : (10 : ℤ) ^ places * 2 ^ shiftOf (num * one) den < one := by
    have less : 10 ^ places * 2 ^ shiftOf (num * one) den < 2 ^ 23 * 2 ^ shiftOf (num * one) den :=
      Nat.mul_lt_mul_of_pos_right (by decide) (Nat.two_pow_pos _)
    exact_mod_cast Nat.lt_of_lt_of_le less place
  exact lt_of_le_of_lt (le_of_mul_le_mul_right bound weight) steps_lt

/-- Whole numbers up to `2 ^ 53` are doubles. -/
theorem units_whole {n : Nat} (small : n ≤ 2 ^ 53) : nearest n 1 < infinity ∧ units (nearest n 1) = n * one := by
  rcases Nat.lt_or_eq_of_le small with below | top
  · have scaled : n * one < 1 * 2 ^ 1127 := by
      have power : 2 ^ 53 * one = 1 * 2 ^ 1127 := by decide +kernel
      rw [← power]
      exact Nat.mul_lt_mul_of_pos_right below one_pos
    have last : shiftOf (n * one) 1 ≤ 1074 := shiftOf_le scaled
    have finite : shiftOf (n * one) 1 < 2045 := Nat.lt_of_le_of_lt last (by decide)
    refine ⟨nearest_lt_infinity Nat.one_pos finite, ?_⟩
    -- The last place divides a unit, so nothing is rounded.
    have divides : 2 ^ shiftOf (n * one) 1 ∣ n * one := Dvd.dvd.mul_left (two_pow_dvd_one last) n
    rw [units_nearest Nat.one_pos finite, significandOf, Nat.one_mul,
      roundQuotient_dvd divides (Nat.two_pow_pos _)]
  · subst top
    decide +kernel

/-! Numerals without the zeros that say nothing. -/

/-- The row without the zeros in front, but with a digit at least. -/
def trimFront (whole : List Char) : List Char :=
  match whole.dropWhile (· == '0') with
  | [] => ['0']
  | kept => kept

section Trimmed

variable {whole fraction : List Char}

theorem digitsValue_trimFront (whole : List Char) : digitsValue (trimFront whole) = digitsValue whole := by
  have zeros : whole.takeWhile (· == '0') = List.replicate (whole.takeWhile (· == '0')).length '0' :=
    List.eq_replicate_of_mem fun c member => by simpa using List.mem_takeWhile_imp member
  have kept : digitsValue whole = digitsValue (whole.dropWhile (· == '0')) := by
    conv_lhs => rw [← List.takeWhile_append_dropWhile (p := (· == '0')) (l := whole), digitsValue_append, zeros,
      digitsValue_zeros, Nat.zero_mul, Nat.zero_add]
  rw [kept, trimFront]
  split
  · rename_i nothing
    rw [nothing]
    rfl
  · rfl

theorem canonical_trimmed (digits : ∀ c ∈ whole, c.isDigit = true) (digits' : ∀ c ∈ fraction, c.isDigit = true)
    (short : (trimZeros fraction).length ≤ places) : Canonical (trimFront whole) (trimZeros fraction) := by
  have kept : ∀ c ∈ whole.dropWhile (· == '0'), c.isDigit = true := fun c member =>
    digits c ((List.dropWhile_suffix _).subset member)
  have head := List.head?_dropWhile_not (· == '0') whole
  refine ⟨?_, ?_, ?_, fun c member => digits' c (mem_trimZeros member), short, last_trimZeros fraction⟩ <;>
    unfold trimFront <;> split
  · exact List.cons_ne_nil _ _
  · assumption
  · exact List.forall_mem_singleton.mpr rfl
  · exact kept
  · exact fun _ => rfl
  · intro zero
    rw [zero] at head
    contradiction

/-- What is trimmed off changes the value by a power of ten. -/
theorem digitsValue_trimmed (whole fraction : List Char) :
    ∃ count, fraction.length = (trimZeros fraction).length + count ∧
      digitsValue (whole ++ fraction) = digitsValue (trimFront whole ++ trimZeros fraction) * 10 ^ count := by
  obtain ⟨count, restored⟩ := trimZeros_restore fraction
  refine ⟨count, ?_, ?_⟩
  · conv_lhs => rw [restored, List.length_append, List.length_replicate]
  · conv_lhs => rw [restored, ← List.append_assoc, digitsValue_append, digitsValue_zeros, List.length_replicate,
      Nat.add_zero, digitsValue_append]
    rw [digitsValue_append, digitsValue_trimFront]

theorem stepsOf_trimmed (whole : List Char) (short : fraction.length ≤ places) :
    stepsOf (trimFront whole) (trimZeros fraction) = stepsOf whole fraction := by
  obtain ⟨count, length, value⟩ := digitsValue_trimmed whole fraction
  rw [stepsOf, stepsOf, value, Nat.mul_assoc, ← Nat.pow_add]
  congr 2
  omega

theorem numeralBits_trimmed (whole fraction : List Char) :
    numeralBits (trimFront whole) (trimZeros fraction) = numeralBits whole fraction := by
  obtain ⟨count, length, value⟩ := digitsValue_trimmed whole fraction
  rw [numeralBits, numeralBits, value, length, Nat.pow_eq, Nat.pow_eq, Nat.pow_add,
    nearest_scale _ _ (Nat.pow_pos (by decide))]

end Trimmed

/-- The numerals that steps give back: those below `10 ^ 9` with few decimals, and those of whole numbers that are
doubles. -/
def Regained (whole fraction : List Char) : Prop :=
  (digitsValue whole < 10 ^ 9 ∧ fraction.length ≤ places) ∨ (fraction = [] ∧ digitsValue whole ≤ 2 ^ 53)

section Regained

variable {whole fraction : List Char}

theorem Regained.short (regained : Regained whole fraction) : fraction.length ≤ places := by
  rcases regained with ⟨_, short⟩ | ⟨rfl, _⟩
  · exact short
  · exact Nat.zero_le _

theorem Regained.canonical (digits : ∀ c ∈ whole, c.isDigit = true) (digits' : ∀ c ∈ fraction, c.isDigit = true)
    (regained : Regained whole fraction) : Canonical (trimFront whole) (trimZeros fraction) := by
  obtain ⟨count, length, _⟩ := digitsValue_trimmed whole fraction
  have short := regained.short
  exact canonical_trimmed digits digits' (by omega)

theorem Regained.steps (digits : ∀ c ∈ fraction, c.isDigit = true) (regained : Regained whole fraction) :
    numeralBits whole fraction < infinity ∧
      steps (numeralBits whole fraction) = stepsOf whole fraction := by
  rcases regained with ⟨small, short⟩ | ⟨rfl, small⟩
  · rw [numeralBits, Nat.pow_eq]
    apply steps_nearest (Nat.pow_pos (by decide))
    · rw [stepsOf, Nat.mul_assoc, ← Nat.pow_add, Nat.sub_add_cancel short]
    · have below := digitsValue_lt digits
      have next : (digitsValue whole + 1) * 10 ^ fraction.length ≤ 10 ^ 9 * 10 ^ fraction.length :=
        Nat.mul_le_mul_right _ small
      rw [digitsValue_append, Nat.mul_comm (10 ^ fraction.length)]
      rw [Nat.add_mul, Nat.one_mul] at next
      omega
  · obtain ⟨finite, exact⟩ := units_whole small
    have bits : numeralBits whole [] = nearest (digitsValue whole) 1 := by
      rw [numeralBits, List.append_nil]
      rfl
    rw [bits, stepsOf, List.append_nil]
    exact ⟨finite, steps_whole exact⟩

theorem exponentField_finite {bits : Nat} (finite : bits < infinity) : exponentField bits ≠ 2047 := by
  simp only [exponentField, infinity, Nat.reducePow, Nat.pow_eq] at *
  omega

theorem Regained.text_eq (digits : ∀ c ∈ whole, c.isDigit = true) (digits' : ∀ c ∈ fraction, c.isDigit = true)
    (regained : Regained whole fraction) :
    text (ofNumeral whole fraction) =
      String.ofList (Piece.numeral (trimFront whole) (trimZeros fraction)).chars := by
  obtain ⟨finite, steps⟩ := regained.steps digits'
  apply String.toList_inj.mp
  rw [text, toBits_ofNumeral, Nat.min_eq_right (Nat.le_of_lt finite), textOfBits_finite (exponentField_finite finite),
    sign, isNegative_small (Nat.le_of_lt finite), if_neg Bool.false_ne_true, List.nil_append, steps,
    ← stepsOf_trimmed whole regained.short, decimal_stepsOf (regained.canonical digits digits'),
    String.toList_ofList]

end Regained

end Number

section Statement

variable {whole fraction : List Char}

theorem Scans.of_word {c : Char} {more rest : List Char} (start : Position) (starts : Text.startsWord c = true)
    (inside : ∀ d ∈ more, Piece.continuesWord d = true) (ends : ∀ d ∈ rest.head?, Piece.continuesWord d = false) :
    ∃ t stop, t.kind = (TokenKind.keyword? (String.ofList (c :: more))).getD .identifier ∧
      Scans start (c :: (more ++ rest)) [t] stop rest := by
  have closed : (Piece.word (c :: more)).Closed := by simp [Piece.Closed]
  exact ⟨_, _, rfl, of_cut (Piece.cut_word starts inside ends) closed fun _ => rfl⟩

/-- A numeral after `print` is scanned and parsed as such. -/
theorem parse_print_numeral {limit : Nat} (room : 2 ≤ limit) (file : String) (some : whole ≠ [])
    (digits : ∀ c ∈ whole, c.isDigit = true) (places : ∀ c ∈ fraction, c.isDigit = true)
    (small : Number.overflows whole fraction = false) :
    ∃ t, parse limit file ("print ".toList ++ ((Piece.numeral whole fraction).chars ++ [';'])) =
      { program := [.print (.literal (.num (Number.ofNumeral whole fraction)) t)]
        lexical := [], syntactic := [] } := by
  have letters : "rint".toList.all Piece.continuesWord = true := by decide
  obtain ⟨word, first, printing, before⟩ := Scans.of_word (.start file) (show Text.startsWord 'p' = true by decide)
    (List.all_eq_true.mp letters)
    (show ∀ d ∈ (' ' :: ((Piece.numeral whole fraction).chars ++ [';'])).head?, _ by
      rintro d ⟨⟩
      decide)
  have blank := Scans.of_blank (show ' ' ∈ blanks by decide) first ((Piece.numeral whole fraction).chars ++ [';'])
  obtain ⟨t, second, number, literal, here⟩ := Scans.of_numeral (first.after [' ']) some digits places small
    (apart_cons (show ';'.isDigit = false from rfl) (by decide) [])
  obtain ⟨semicolon, stop, ending, after⟩ := Scans.of_symbol second
    (show Piece.cut ';' [] = (.symbol .semicolon, []) from rfl)
  have scanned : scan file ("print ".toList ++ ((Piece.numeral whole fraction).chars ++ [';'])) =
      ([word, t, semicolon] ++ [endToken stop], []) :=
    (before.append (blank.append (here.append after))).scan_eq
  let program : List Stmt := [.print (.literal (.num (Number.ofNumeral whole fraction)) t)]
  have canonical : Stmt.CanonicalAll program :=
    ⟨by simp [Stmt.Canonical, Expr.Canonical, Token.constant?, number, literal], trivial⟩
  have spelled : Spells (Stmt.yieldAll program) [word, t, semicolon] :=
    .cons printing (.cons rfl (.cons ending .nil))
  have parsed : parseTokens limit ([word, t, semicolon] ++ [endToken stop]) = (program, []) :=
    (parseTokens_clean (canonical.bare spelled) rfl).mpr ⟨canonical, room, spelled⟩
  refine ⟨t, ?_⟩
  simp only [parse, scanned, parsed, program]

/-- Printing a value that has a text adds this to the output. -/
theorem run_print_literal {m : Machine} {value : Value} {line : String} (shown : value.text? = some line)
    (roomy : m.Roomy) (rounds : Nat) (t : Token) :
    runProgram rounds [.print (.literal value t)] m = .ok .void { m with output := m.output.push line } := by
  have run : runProgram rounds [.print (.literal value t)] =
      Eval.nest t (do
        Eval.print value
        return .void) := by
    simp [runProgram, Stmt.execute, Stmt.token, Expr.token, Expr.evaluate]
  have printed : (Eval.print value >>= fun _ => pure .void : Eval Value) m.deeper =
      .ok .void { m.deeper with output := m.output.push line } := by
    rw [Eval.bind_of_ok (Eval.print_shown shown)]
    rfl
  rw [run]
  exact Eval.nest_of_ok t roomy printed

theorem scan_numeral (file : String) (some : whole ≠ []) (digits : ∀ c ∈ whole, c.isDigit = true)
    (places : ∀ c ∈ fraction, c.isDigit = true) (small : Number.overflows whole fraction = false) :
    ∃ t stop, scan file (Piece.numeral whole fraction).chars = ([t, endToken stop], []) ∧ t.kind = .number ∧
      t.literal = .num (Number.ofNumeral whole fraction) := by
  obtain ⟨t, stop, number, literal, here⟩ := Scans.of_numeral (.start file) some digits places small
    (show Apart [] by simp [Apart])
  rw [List.append_nil] at here
  exact ⟨t, stop, here.scan_eq, number, literal⟩

end Statement

/-- A numeral below `10 ^ 9` with at most six decimals, and one of a whole number up to `2 ^ 53`, is printed as it was
written, but without zeros in front of its whole part or at the end of its fraction. What is printed is scanned as a
number with the same literal. -/
theorem printed_literal_regained {whole fraction : List Char} {limit : Nat} {m : Machine} (some : whole ≠ [])
    (digits : ∀ c ∈ whole, c.isDigit = true) (digits' : ∀ c ∈ fraction, c.isDigit = true)
    (range : (Number.digitsValue whole < 10 ^ 9 ∧ fraction.length ≤ 6) ∨
      (fraction = [] ∧ Number.digitsValue whole ≤ 2 ^ 53))
    (parsing : 2 ≤ limit) (running : m.depth + 1 ≤ m.limit) (file : String) (rounds : Nat) :
    let numeral := (Piece.numeral whole fraction).chars
    let trimmed := (Piece.numeral (Number.trimFront whole) (Number.trimZeros fraction)).chars
    let parsed := parse limit file ("print ".toList ++ (numeral ++ [';']))
    parsed.diagnostics = [] ∧
      runProgram rounds parsed.program m = .ok .void { m with output := m.output.push (String.ofList trimmed) } ∧
      ∃ x t stop t' stop', scan file numeral = ([t, endToken stop], []) ∧ t.kind = .number ∧ t.literal = .num x ∧
        scan file trimmed = ([t', endToken stop'], []) ∧ t'.kind = .number ∧ t'.literal = .num x := by
  intro numeral trimmed parsed
  have regained : Number.Regained whole fraction := range
  have small : Number.overflows whole fraction = false :=
    decide_eq_false (Nat.not_le_of_lt (regained.steps digits').1)
  have canonical := regained.canonical digits digits'
  have bits := Number.numeralBits_trimmed whole fraction
  have small' : Number.overflows (Number.trimFront whole) (Number.trimZeros fraction) = false := by
    rw [Number.overflows, bits]
    exact small
  have same : Number.ofNumeral (Number.trimFront whole) (Number.trimZeros fraction) =
      Number.ofNumeral whole fraction := by
    rw [Number.ofNumeral, bits, Number.ofNumeral]
  obtain ⟨literal, read⟩ := parse_print_numeral parsing file some digits digits' small
  obtain ⟨t, stop, scanned, number, value⟩ := scan_numeral file some digits digits' small
  obtain ⟨t', stop', scanned', number', value'⟩ := scan_numeral file canonical.nonempty canonical.whole_digits
    canonical.fraction_digits small'
  have shown : (Value.num (Number.ofNumeral whole fraction)).text? = Option.some (String.ofList trimmed) :=
    congrArg Option.some (regained.text_eq digits digits')
  change parsed = _ at read
  rw [read]
  exact ⟨rfl, run_print_literal shown running rounds literal,
    _, t, stop, t', stop', scanned, number, value, scanned', number', same ▸ value'⟩

/-- All six decimals of a large numeral, with zeros that are left out. -/
theorem printed_literal_regained_near_bound :
    let digits := "0999999999".toList
    let parsed := parse 2 "" "print 0999999999.999990;".toList
    (Number.digitsValue digits < 10 ^ 9 ∧ "999990".toList.length ≤ 6) ∧ parsed.diagnostics = [] ∧
      runProgram 0 parsed.program { limit := 1 } = .ok .void { limit := 1, output := #["999999999.99999"] } ∧
      ∃ x t stop t' stop', scan "" "0999999999.999990".toList = ([t, endToken stop], []) ∧ t.kind = .number ∧
        t.literal = .num x ∧ scan "" "999999999.99999".toList = ([t', endToken stop'], []) ∧ t'.kind = .number ∧
        t'.literal = .num x := by
  intro digits parsed
  have whole : digits.all Char.isDigit = true := by decide
  have fraction : "999990".toList.all Char.isDigit = true := by decide
  have range : Number.digitsValue digits < 10 ^ 9 ∧ "999990".toList.length ≤ 6 := by decide
  refine ⟨range, ?_⟩
  exact printed_literal_regained (by decide) (List.all_eq_true.mp whole) (List.all_eq_true.mp fraction)
    (.inl range) (Nat.le_refl 2) (Nat.le_refl 1) "" 0

end LoxLang
