import LoxLang.Proofs.Number.Decimal
import LoxLang.Proofs.Yaml.Folding

/-! Whole numbers of 64 bits are scalars that stand for themselves: the decimal numeral of one is written
as it is, and it is no word, no date and no numeral in another base. -/
namespace LoxLang.Yaml

/-! Values. -/

theorem digitValue?_of_isDigit (digit : c.isDigit = true) :
    Text.digitValue? c = some (c.toNat - '0'.toNat) := if_pos digit

theorem naturalIn?_ten {digits : List Char} (each : ∀ c ∈ digits, c.isDigit = true) (nonempty : digits ≠ []) :
    naturalIn? 10 digits = some (Number.digitsValue digits) := by
  have step : ∀ value, digits.foldlM
      (fun n c => (Text.digitValue? c).bind fun d => if d < 10 then some (n * 10 + d) else none) value =
      some (digits.foldl (fun value digit => value * 10 + (digit.toNat - '0'.toNat)) value) := by
    clear nonempty
    induction digits with
    | nil => exact fun _ => rfl
    | cons c digits ih =>
      intro value
      obtain ⟨first, later⟩ := List.forall_mem_cons.mp each
      have small : c.toNat - '0'.toNat < 10 := by
        have high := (Number.digit_bounds first).2
        have nine : '9'.toNat = '0'.toNat + 9 := rfl
        omega
      rw [List.foldlM_cons, digitValue?_of_isDigit first, Option.bind_some, if_pos small]
      exact ih later _
  rw [naturalIn?, if_neg (by simpa using nonempty), step]
  rfl

theorem natural?_of_head {digits : List Char} (first : digits.head? ≠ some '0') :
    natural? digits = naturalIn? 10 digits := by
  unfold natural?
  split
  case h_8 => rfl
  all_goals exact absurd rfl first

theorem natural?_toDigits (value : Nat) : natural? (Nat.toDigits 10 value) = some value := by
  by_cases zero : (Nat.toDigits 10 value).head? = some '0'
  · have alone := Number.head_toDigits value zero
    have nothing := congrArg Number.digitsValue alone
    rw [Number.digitsValue_toDigits] at nothing
    rw [alone, nothing]
    rfl
  · rw [natural?_of_head zero, naturalIn?_ten (fun c => Number.isDigit_toDigits) Nat.toDigits_ne_nil,
      Number.digitsValue_toDigits]

/-! Numerals. -/

theorem toList_toString (n : Int) :
    (toString n).toList = (if n < 0 then ['-'] else []) ++ Nat.toDigits 10 n.natAbs := by
  cases n with
  | ofNat m => exact Nat.toList_repr
  | negSucc m =>
    show ("-" ++ m.succ.repr).toList = _
    rw [String.toList_append, Nat.toList_repr, if_pos (Int.negSucc_lt_zero m)]
    rfl

/-- A numeral is a digit and more of them, perhaps after a minus sign. -/
theorem toString_cases (n : Int) :
    ∃ c more, c.isDigit = true ∧ (∀ d ∈ more, d.isDigit = true) ∧ c :: more = Nat.toDigits 10 n.natAbs ∧
      ((0 ≤ n ∧ (toString n).toList = c :: more) ∨ (n < 0 ∧ (toString n).toList = '-' :: c :: more)) := by
  obtain ⟨c, more, digits⟩ := List.exists_cons_of_ne_nil (Nat.toDigits_ne_nil (b := 10) (n := n.natAbs))
  have each : ∀ d ∈ c :: more, d.isDigit = true := fun d member => Number.isDigit_toDigits (digits ▸ member)
  obtain ⟨first, later⟩ := List.forall_mem_cons.mp each
  refine ⟨c, more, first, later, digits.symm, ?_⟩
  rw [toList_toString, digits]
  rcases Int.lt_or_le n 0 with negative | positive
  · exact .inr ⟨negative, by rw [if_pos negative]; rfl⟩
  · exact .inl ⟨positive, by rw [if_neg (Int.not_lt.mpr positive)]; rfl⟩

theorem ne_of_isDigit {c d : Char} (digit : c.isDigit = true) (other : ¬d.isDigit = true) : c ≠ d := by
  rintro rfl
  exact other digit

theorem integer?_of_signed? {text : List Char} (read : signed? natural? text = some n) :
    integer? text = some n := by
  simp only [integer?, read]

theorem integer?_toString {n : Int} (low : -2 ^ 63 ≤ n) (high : n < 2 ^ 63) :
    integer? (toString n).toList = some n := by
  obtain ⟨c, more, digit, -, digits, ⟨positive, text⟩ | ⟨negative, text⟩⟩ := toString_cases n
  · have fits : n.natAbs < Nat.pow 2 64 := by
      show n.natAbs < 2 ^ 64
      omega
    have unsigned : signed? natural? (c :: more) =
        (natural? (c :: more)).bind fun n => if n < Nat.pow 2 64 then some (n : Int) else none := by
      unfold signed?
      split
      · rename_i same
        exact absurd (List.cons.inj same).1 (ne_of_isDigit digit (by decide))
      · rename_i same
        exact absurd (List.cons.inj same).1 (ne_of_isDigit digit (by decide))
      · rfl
    rw [text]
    apply integer?_of_signed?
    rw [unsigned, digits, natural?_toDigits, Option.bind_some, if_pos fits, Int.natAbs_of_nonneg positive]
  · have fits : n.natAbs ≤ Nat.pow 2 63 := by
      show n.natAbs ≤ 2 ^ 63
      omega
    rw [text]
    apply integer?_of_signed?
    rw [signed?, digits, natural?_toDigits, Option.bind_some, if_pos fits]
    exact congrArg some (by omega)

/-- The only minus sign of a numeral stands in front, and no date begins there. -/
theorem isTimestamp_toString (n : Int) : isTimestamp (toString n).toList = false := by
  have none : cutDate? (toString n).toList = none := by
    obtain ⟨c, more, digit, later, -, ⟨-, text⟩ | ⟨-, text⟩⟩ := toString_cases n
    · have all : (c :: more).dropWhile Char.isDigit = [] :=
        List.dropWhile_eq_nil_iff.mpr (List.forall_mem_cons.mpr ⟨digit, later⟩)
      rw [text]
      simp [cutDate?, all]
    · rw [text]
      simp [cutDate?]
  rw [isTimestamp, none]

/-- A digit comes first, or after a minus sign. -/
def startsNumeral : List Char → Bool
  | [] => false
  | c :: rest => c.isDigit || (c == '-' && rest.head?.any Char.isDigit)

theorem startsNumeral_toString (n : Int) : startsNumeral (toString n).toList = true := by
  obtain ⟨c, more, digit, -, -, ⟨-, text⟩ | ⟨-, text⟩⟩ := toString_cases n <;>
    rw [text] <;> simp [startsNumeral, digit]

theorem lookup_words_numeral {text : List Char} (numeral : startsNumeral text = true) :
    Plain.words.lookup (String.ofList text) = none := by
  have words := List.all_eq_true.mp
    (by decide : Plain.words.all (fun word => !startsNumeral word.1.toList) = true)
  refine List.lookup_eq_none_iff.mpr fun word member => bne_iff_ne.mpr fun same => ?_
  simpa [← same, numeral] using words word member

/-- The characters of a numeral are digits and the minus sign. -/
theorem mem_toString {n : Int} (member : c ∈ (toString n).toList) : c.isDigit = true ∨ c = '-' := by
  obtain ⟨first, more, digit, later, -, ⟨-, text⟩ | ⟨-, text⟩⟩ := toString_cases n <;>
    simp only [text, List.mem_cons] at member
  · rcases member with rfl | member
    · exact .inl digit
    · exact .inl (later c member)
  · rcases member with rfl | rfl | member
    · exact .inr rfl
    · exact .inl digit
    · exact .inl (later c member)

theorem ne_of_mem_toString {n : Int} (member : c ∈ (toString n).toList) (digit : ¬d.isDigit = true)
    (minus : d ≠ '-') : c ≠ d := by
  rcases mem_toString member with inside | rfl
  · exact ne_of_isDigit inside digit
  · exact minus.symm

/-- What begins like a numeral is no word, so its digits are looked at. -/
theorem resolve_numeral {text : List Char} (numeral : startsNumeral text = true) (dates : Bool) :
    Plain.resolve dates text = Plain.ofDigits dates text := by
  have word := lookup_words_numeral numeral
  cases text with
  | nil => simp [startsNumeral] at numeral
  | cons c rest =>
    have first : c.isDigit = true ∨ c = '-' := by
      simp only [startsNumeral, Bool.or_eq_true, Bool.and_eq_true, beq_iff_eq] at numeral
      exact numeral.imp id And.left
    have point : c ≠ '.' := by
      rintro rfl
      exact absurd first (by decide)
    simp only [Plain.resolve, word]
    rw [if_neg (by simpa using point), if_pos]
    rcases first with digit | rfl
    · simp [digit]
    · rfl

theorem resolve_toString {n : Int} (low : -2 ^ 63 ≤ n) (high : n < 2 ^ 63) :
    Plain.resolve true (toString n).toList = .int n := by
  have plain : (toString n).toList.filter (· != '_') = (toString n).toList :=
    List.filter_eq_self.mpr fun c member => bne_iff_ne.mpr (ne_of_mem_toString member (by decide) (by decide))
  rw [resolve_numeral (startsNumeral_toString n)]
  simp only [Plain.ofDigits, plain, isTimestamp_toString, integer?_toString low high, Bool.and_false,
    Bool.false_eq_true, if_false]

theorem digit_printable {c : Char} (digit : c.isDigit = true) : Printable c := by
  obtain ⟨low, high⟩ := Number.digit_bounds digit
  exact ⟨Nat.le_trans (by decide) low, Nat.le_trans high (by decide)⟩

theorem digit_not_isBlank {c : Char} (digit : c.isDigit = true) : isBlank c = false :=
  (digit_printable digit).not_isBlank (ne_of_isDigit digit (by decide))

theorem printable_toString (n : Int) : ∀ c ∈ (toString n).toList, Printable c := by
  intro c member
  rcases mem_toString member with digit | rfl
  · exact digit_printable digit
  · decide

theorem scalarLine_toString (n : Int) :
    ScalarLine ((toString n).toList ++ ['\n']) (toString n).toList true := by
  refine scalarLine_word (fun c member => ne_of_mem_toString member (by decide) (by decide)) ?_
    (staysPlain_of_ne (fun c member => ⟨ne_of_mem_toString member (by decide) (by decide),
      ne_of_mem_toString member (by decide) (by decide)⟩) false)
  obtain ⟨c, more, digit, -, -, ⟨-, text⟩ | ⟨-, text⟩⟩ := toString_cases n
  · have special : ¬(c == '-' || c == '?' || c == ':') = true := by
      simp [ne_of_isDigit (d := '-') digit (by decide), ne_of_isDigit (d := '?') digit (by decide),
        ne_of_isDigit (d := ':') digit (by decide)]
    rw [text, beginsPlain, if_neg special, not_isIndicator Char.isDigit digit (by decide),
      digit_not_isBlank digit]
    rfl
  · rw [text, beginsPlain, if_pos (by decide)]
    simp [endsToken, digit_not_isBlank digit, (digit_printable digit).isBreak]

end LoxLang.Yaml
