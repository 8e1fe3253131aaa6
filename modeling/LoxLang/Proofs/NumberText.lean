import LoxLang.Piece
import LoxLang.Proofs.Number.Bits

/-! The text of a number that is read from a numeral. Reading a numeral gives no NaN and no negative number, so
the text begins with a digit, or with a plus sign where the number is infinite, and never with a letter. -/
namespace LoxLang.Number

theorem mem_trimZeros (member : c ∈ trimZeros digits) : c ∈ digits := by
  have kept := (List.dropWhile_suffix _).subset (List.mem_reverse.mp member)
  exact List.mem_reverse.mp kept

theorem isDigit_toDigits (member : c ∈ Nat.toDigits 10 value) : c.isDigit = true :=
  Nat.isDigit_of_mem_toDigits (by decide) (by decide) member

theorem isDigit_padded (member : c ∈ padded width value) : c.isDigit = true := by
  rcases List.mem_append.mp member with zeros | digits
  · obtain ⟨_, rfl⟩ := List.mem_replicate.mp zeros
    rfl
  · exact isDigit_toDigits digits

/-- Trimming ends at the point, so it leaves the zeros of the whole part. -/
theorem trimZeros_point (whole fraction : List Char) :
    trimZeros (whole ++ '.' :: fraction) = whole ++ '.' :: trimZeros fraction := by
  simp only [trimZeros, List.reverse_append, List.reverse_cons, List.append_assoc, List.dropWhile_append]
  split
  · rename_i empty
    rw [List.isEmpty_iff.mp empty]
    simp
  · simp

theorem chars_numeral {fraction : List Char} (whole : List Char) (some : fraction ≠ []) :
    (Piece.numeral whole fraction).chars = whole ++ '.' :: fraction := by
  cases fraction with
  | nil => contradiction
  | cons d fraction => rfl

theorem trimDecimals_point (whole : List Char) {fraction : List Char}
    (digits : ∀ c ∈ fraction, c.isDigit = true) :
    trimDecimals (whole ++ '.' :: fraction) = (Piece.numeral whole (trimZeros fraction)).chars := by
  rw [trimDecimals, trimZeros_point]
  rcases List.eq_nil_or_concat (trimZeros fraction) with empty | ⟨front, last, trimmed⟩
  · simp [empty, Piece.chars]
  · rw [List.concat_eq_append] at trimmed
    have digit : last.isDigit = true := digits last (mem_trimZeros (by simp [trimmed]))
    have ends : (whole ++ '.' :: (front ++ [last])).getLast? = some last := by
      rw [← List.cons_append, ← List.append_assoc, List.getLast?_concat]
    have other : some last ≠ some '.' := by
      rintro ⟨⟩
      contradiction
    rw [chars_numeral whole (by simp [trimmed]), trimmed, ends, if_neg other]

/-- What is written of a number of steps. -/
def decimal (value : Nat) : List Char := trimDecimals (fixed value)

/-- Only the fraction loses its zeros, though the whole text is trimmed. -/
theorem decimal_eq (value : Nat) : decimal value =
    (Piece.numeral (Nat.toDigits 10 (value / 10 ^ places))
      (trimZeros (padded places (value % 10 ^ places)))).chars :=
  trimDecimals_point _ fun _ => isDigit_padded

theorem trimDecimals_signed (c : Char) (value : Nat) :
    trimDecimals (c :: fixed value) = c :: decimal value := by
  rw [fixed, ← List.cons_append, trimDecimals_point _ fun _ => isDigit_padded, decimal_eq]
  cases trimZeros (padded places (value % 10 ^ places)) <;> rfl

theorem decimal_begins (value : Nat) :
    ∃ c more, decimal value = c :: more ∧ c.isDigit = true ∧ ∀ d ∈ more, d.isDigit = true ∨ d = '.' := by
  obtain ⟨c, more, begins⟩ := List.exists_cons_of_ne_nil
    (Nat.toDigits_ne_nil : Nat.toDigits 10 (value / 10 ^ places) ≠ [])
  have digits : ∀ d ∈ c :: more, d.isDigit = true := fun d member => isDigit_toDigits (begins ▸ member)
  obtain ⟨first, rest⟩ := List.forall_mem_cons.mp digits
  rw [decimal_eq, begins]
  by_cases empty : trimZeros (padded places (value % 10 ^ places)) = []
  · rw [empty, Piece.chars]
    exact ⟨c, more, rfl, first, fun d member => .inl (rest d member)⟩
  · rw [chars_numeral _ empty]
    refine ⟨c, _, rfl, first, fun d member => ?_⟩
    rcases List.mem_append.mp member with whole | after
    · exact .inl (rest d whole)
    · rcases List.mem_cons.mp after with point | fraction
      · exact .inr point
      · exact .inl (isDigit_padded (mem_trimZeros fraction))

/-- The text of a numeral's value begins with a digit, or with the sign of an infinity. -/
theorem text_begins (whole fraction : List Char) :
    ∃ c more, (text (ofNumeral whole fraction)).toList = c :: more ∧ (c.isDigit = true ∨ c = '+') ∧
      ∀ d ∈ more, d.isDigit = true ∨ d ∈ ['.', 'I', 'n', 'f'] := by
  have small : (ofNumeral whole fraction).toBits.toNat ≤ infinity := by
    rw [toBits_ofNumeral]
    exact Nat.min_le_left ..
  obtain ⟨c, more, decimal, digit, rest⟩ := decimal_begins (steps (ofNumeral whole fraction).toBits.toNat)
  unfold text textOfBits
  simp only [isNegative_small small, Bool.false_eq_true, if_false]
  split
  case isTrue top =>
    simp only [fractionField_top small top, ne_eq, not_true_eq_false, if_false]
    exact ⟨'+', ['I', 'n', 'f'], rfl, .inr rfl, by simp⟩
  case isFalse =>
    refine ⟨c, more, String.toList_ofList.trans decimal, .inl digit, fun d member => ?_⟩
    exact (rest d member).imp_right fun point => by simp [point]

end LoxLang.Number
