import LoxLang.Piece
import LoxLang.Proofs.NumberText

/-! Rows of decimal digits, and the canonical way to write a whole number of steps of `10 ^ -places`: no zero in
front of the whole part that could be left out, and none at the end of the fraction. Every number of steps has
one canonical decimal, and `decimal` writes it. -/
namespace LoxLang.Number

/-! Values of rows. -/

theorem digitsValue_eq (digits : List Char) : digitsValue digits = Nat.ofDigitChars 10 digits 0 := by
  simp only [digitsValue, Nat.ofDigitChars_eq_foldl, Nat.mul_comm]

theorem digitsValue_append (front back : List Char) :
    digitsValue (front ++ back) = digitsValue front * 10 ^ back.length + digitsValue back := by
  simp only [digitsValue_eq, Nat.ofDigitChars_append]
  rw [Nat.ofDigitChars_eq_ofDigitChars_zero, Nat.mul_comm]

theorem digitsValue_cons (c : Char) (row : List Char) :
    digitsValue (c :: row) = (c.toNat - '0'.toNat) * 10 ^ row.length + digitsValue row := by
  have single : digitsValue [c] = c.toNat - '0'.toNat := by simp [digitsValue]
  rw [← single, ← digitsValue_append, List.singleton_append]

theorem digitsValue_zeros (count : Nat) : digitsValue (List.replicate count '0') = 0 := by
  rw [digitsValue_eq, Nat.ofDigitChars_replicate_zero, Nat.mul_zero]

theorem digitsValue_toDigits (value : Nat) : digitsValue (Nat.toDigits 10 value) = value := by
  rw [digitsValue_eq, Nat.ofDigitChars_ten_toDigits]

theorem digit_bounds {c : Char} (digit : c.isDigit = true) : '0'.toNat ≤ c.toNat ∧ c.toNat ≤ '9'.toNat := by
  simpa [Char.isDigit, UInt32.le_iff_toNat_le] using digit

theorem digitChar_digit {c : Char} (digit : c.isDigit = true) : (c.toNat - '0'.toNat).digitChar = c := by
  obtain ⟨low, high⟩ := digit_bounds digit
  have zero : '0'.toNat = 48 := rfl
  have nine : '9'.toNat = 57 := rfl
  have small : c.toNat - 48 < 10 := by omega
  apply Char.toNat_inj.mp
  rw [zero, Nat.toNat_digitChar_of_lt_ten small]
  omega

/-- So a fraction that is padded to all its places never carries into the whole part. -/
theorem digitsValue_lt {row : List Char} (digits : ∀ c ∈ row, c.isDigit = true) :
    digitsValue row < 10 ^ row.length := by
  induction row with
  | nil => decide
  | cons c row ih =>
    obtain ⟨first, rest⟩ := List.forall_mem_cons.mp digits
    obtain ⟨_, high⟩ := digit_bounds first
    have below := ih rest
    have nine : c.toNat - '0'.toNat ≤ 9 := Nat.sub_le_of_le_add high
    have scaled := Nat.mul_le_mul_right (10 ^ row.length) nine
    rw [digitsValue_cons, List.length_cons, Nat.pow_succ]
    omega

/-- Rows of the same length with the same value are the same. -/
theorem row_unique {row other : List Char} (digits : ∀ c ∈ row, c.isDigit = true)
    (digits' : ∀ c ∈ other, c.isDigit = true) (length : row.length = other.length)
    (value : digitsValue row = digitsValue other) : row = other := by
  induction row generalizing other with
  | nil => exact (List.length_eq_zero_iff.mp length.symm).symm
  | cons c row ih =>
    obtain ⟨d, other, rfl⟩ := List.exists_cons_of_length_eq_add_one length.symm
    obtain ⟨first, rest⟩ := List.forall_mem_cons.mp digits
    obtain ⟨first', rest'⟩ := List.forall_mem_cons.mp digits'
    have same : row.length = other.length := Nat.succ_inj.mp length
    have below := digitsValue_lt rest
    have below' := digitsValue_lt rest'
    rw [digitsValue_cons, digitsValue_cons, ← same] at value
    rw [← same] at below'
    -- The first digit is the quotient by the weight of its place, and the row behind it the remainder.
    have quotient := congrArg (· / 10 ^ row.length) value
    have remainder := congrArg (· % 10 ^ row.length) value
    simp only [Nat.mul_add_mod_self_right, Nat.mod_eq_of_lt below, Nat.mod_eq_of_lt below'] at remainder
    have weight : 0 < 10 ^ row.length := Nat.pow_pos (by decide)
    simp only [Nat.mul_comm _ (10 ^ row.length), Nat.mul_add_div weight, Nat.div_eq_of_lt below,
      Nat.div_eq_of_lt below', Nat.add_zero] at quotient
    rw [← digitChar_digit first, ← digitChar_digit first', quotient, ih rest rest' same remainder]

/-! Zeros at the ends of a row. -/

theorem length_padded {width value : Nat} (fits : value < 10 ^ width) (some : 0 < width) :
    (padded width value).length = width := by
  have short := (Nat.length_toDigits_le_iff (by decide) some).mpr fits
  simp only [padded, List.length_append, List.length_replicate]
  omega

theorem digitsValue_padded (width value : Nat) : digitsValue (padded width value) = value := by
  simp only [padded, digitsValue_append, digitsValue_zeros, digitsValue_toDigits, Nat.zero_mul, Nat.zero_add]

theorem padded_digitsValue {row : List Char} (digits : ∀ c ∈ row, c.isDigit = true) (some : row ≠ []) :
    padded row.length (digitsValue row) = row :=
  row_unique (fun _ => isDigit_padded) digits
    (length_padded (digitsValue_lt digits) (List.length_pos_iff.mpr some)) (digitsValue_padded ..)

theorem trimZeros_zeros (row : List Char) (count : Nat) :
    trimZeros (row ++ List.replicate count '0') = trimZeros row := by
  have zeros : ∀ c ∈ List.replicate count '0', (c == '0') = true := fun c member => by
    simp [(List.mem_replicate.mp member).2]
  rw [trimZeros, List.reverse_append, List.reverse_replicate, List.dropWhile_append_of_pos zeros, trimZeros]

theorem trimZeros_of_last {row : List Char} (last : row.getLast? ≠ some '0') : trimZeros row = row := by
  cases row using List.reverseRecOn with
  | nil => rfl
  | append_singleton row c =>
    have other : c ≠ '0' := by simpa using last
    simp [trimZeros, other]

theorem last_trimZeros (row : List Char) : (trimZeros row).getLast? ≠ some '0' := by
  intro last
  rw [trimZeros, List.getLast?_reverse] at last
  have dropped := List.head?_dropWhile_not (· == '0') row.reverse
  rw [last] at dropped
  simp at dropped

/-- What is trimmed off are zeros. -/
theorem trimZeros_restore (row : List Char) :
    ∃ count, row = trimZeros row ++ List.replicate count '0' := by
  refine ⟨(row.reverse.takeWhile (· == '0')).length, ?_⟩
  have zeros : row.reverse.takeWhile (· == '0') =
      List.replicate (row.reverse.takeWhile (· == '0')).length '0' :=
    List.eq_replicate_of_mem fun c member => by simpa using List.mem_takeWhile_imp member
  calc row = (row.reverse.takeWhile (· == '0') ++ row.reverse.dropWhile (· == '0')).reverse := by
        rw [List.takeWhile_append_dropWhile, List.reverse_reverse]
    _ = _ := by rw [List.reverse_append, zeros, List.reverse_replicate, List.length_replicate, trimZeros]

/-- A row without a zero in front, other than zero itself, is the one that its value is written as. -/
theorem toDigits_digitsValue {row : List Char} (digits : ∀ c ∈ row, c.isDigit = true) (nonempty : row ≠ [])
    (front : row.head? = some '0' → row = ['0']) : Nat.toDigits 10 (digitsValue row) = row := by
  induction row using List.reverseRecOn with
  | nil => exact absurd rfl nonempty
  | append_singleton row c ih =>
    obtain ⟨before, last⟩ := List.forall_mem_append.mp digits
    have digit := last c List.mem_cons_self
    obtain ⟨_, high⟩ := digit_bounds digit
    have small : c.toNat - '0'.toNat < 10 := Nat.lt_succ_of_le (Nat.sub_le_of_le_add high)
    have value : digitsValue (row ++ [c]) = digitsValue row * 10 + (c.toNat - '0'.toNat) := by
      rw [digitsValue_append]
      simp [digitsValue]
    by_cases empty : row = []
    · subst empty
      rw [value, show digitsValue [] = 0 from rfl, Nat.zero_mul, Nat.zero_add, Nat.toDigits_of_lt_base small,
        digitChar_digit digit, List.nil_append]
    · have whole : row.head? ≠ some '0' := by
        intro zero
        have alone := congrArg List.length (front (by rw [List.head?_append_of_ne_nil _ empty, zero]))
        have longer := List.length_pos_iff.mpr empty
        rw [List.length_append, List.length_singleton, List.length_singleton] at alone
        omega
      have positive : 0 < digitsValue row := by
        obtain ⟨d, rest, rfl⟩ := List.exists_cons_of_ne_nil empty
        have nonzero : d ≠ '0' := by simpa using whole
        obtain ⟨low, _⟩ := digit_bounds (before d List.mem_cons_self)
        have above : '0'.toNat ≠ d.toNat := fun same => nonzero (Char.toNat_inj.mp same.symm)
        rw [digitsValue_cons]
        exact Nat.add_pos_left (Nat.mul_pos (by omega) (Nat.pow_pos (by decide))) _
      rw [value, Nat.toDigits_of_base_le (by decide) (by omega), Nat.mul_add_mod_self_right,
        Nat.mod_eq_of_lt small, digitChar_digit digit]
      rw [show (digitsValue row * 10 + (c.toNat - '0'.toNat)) / 10 = digitsValue row by omega,
        ih before empty fun zero => absurd zero whole]

/-- Decimal digits have no zero in front, but for the number zero. -/
theorem head_toDigits (value : Nat) (zero : (Nat.toDigits 10 value).head? = some '0') :
    Nat.toDigits 10 value = ['0'] := by
  induction value using Nat.strong_induction_on with
  | _ value ih =>
    by_cases small : value < 10
    · rw [Nat.toDigits_of_lt_base small] at zero ⊢
      simpa using zero
    · have large : 10 ≤ value := Nat.le_of_not_lt small
      rw [Nat.toDigits_of_base_le (by decide) large, List.head?_append_of_ne_nil _ Nat.toDigits_ne_nil] at zero
      have alone := congrArg digitsValue (ih (value / 10) (by omega) zero)
      rw [digitsValue_toDigits] at alone
      have nothing : value / 10 = 0 := alone
      omega

/-! Canonical decimals. -/

/-- A decimal with at most `places` digits in its fraction, no zero in front of its whole part but where that
is zero, and no zero at its end. -/
structure Canonical (whole fraction : List Char) : Prop where
  nonempty : whole ≠ []
  whole_digits : ∀ c ∈ whole, c.isDigit = true
  front : whole.head? = some '0' → whole = ['0']
  fraction_digits : ∀ c ∈ fraction, c.isDigit = true
  short : fraction.length ≤ places
  back : fraction.getLast? ≠ some '0'

def stepsOf (whole fraction : List Char) : Nat :=
  digitsValue (whole ++ fraction) * 10 ^ (places - fraction.length)

theorem stepsOf_eq (whole : List Char) (short : fraction.length ≤ places) :
    stepsOf whole fraction = digitsValue whole * 10 ^ places +
      digitsValue (fraction ++ List.replicate (places - fraction.length) '0') := by
  have all : 10 ^ fraction.length * 10 ^ (places - fraction.length) = 10 ^ places := by
    rw [← Nat.pow_add, Nat.add_sub_cancel' short]
  rw [stepsOf, digitsValue_append, digitsValue_append, digitsValue_zeros, List.length_replicate,
    Nat.add_mul, Nat.mul_assoc, all, Nat.add_zero]

/-- The decimal that is written for a number of steps is canonical, and denotes them. -/
theorem decimal_canonical (value : Nat) :
    ∃ whole fraction, decimal value = (Piece.numeral whole fraction).chars ∧ Canonical whole fraction ∧
      stepsOf whole fraction = value := by
  have fits : value % 10 ^ places < 10 ^ places := Nat.mod_lt _ (by decide)
  obtain ⟨count, restored⟩ := trimZeros_restore (padded places (value % 10 ^ places))
  have length := congrArg List.length restored
  rw [length_padded fits (by decide), List.length_append, List.length_replicate] at length
  have short : (trimZeros (padded places (value % 10 ^ places))).length ≤ places := by omega
  refine ⟨_, _, decimal_eq value, ⟨Nat.toDigits_ne_nil, fun _ => isDigit_toDigits, head_toDigits _,
    fun _ member => isDigit_padded (mem_trimZeros member), short, last_trimZeros _⟩, ?_⟩
  have zeros : places - (trimZeros (padded places (value % 10 ^ places))).length = count := by omega
  rw [stepsOf_eq _ short, zeros, ← restored, digitsValue_padded, digitsValue_toDigits, Nat.mul_comm,
    Nat.div_add_mod]

/-- A canonical decimal is what is written for the steps that it denotes. -/
theorem decimal_stepsOf (canonical : Canonical whole fraction) :
    decimal (stepsOf whole fraction) = (Piece.numeral whole fraction).chars := by
  have digits : ∀ c ∈ fraction ++ List.replicate (places - fraction.length) '0', c.isDigit = true := by
    intro c member
    rcases List.mem_append.mp member with inside | zero
    · exact canonical.fraction_digits c inside
    · rw [(List.mem_replicate.mp zero).2]
      rfl
  have length : (fraction ++ List.replicate (places - fraction.length) '0').length = places := by
    rw [List.length_append, List.length_replicate, Nat.add_sub_cancel' canonical.short]
  have below := digitsValue_lt digits
  rw [length] at below
  have some : fraction ++ List.replicate (places - fraction.length) '0' ≠ [] := by
    intro empty
    rw [empty] at length
    contradiction
  have row := padded_digitsValue digits some
  rw [length] at row
  rw [decimal_eq, stepsOf_eq whole canonical.short, Nat.mul_add_mod_self_right, Nat.mod_eq_of_lt below, row,
    trimZeros_zeros, trimZeros_of_last canonical.back, Nat.mul_comm, Nat.mul_add_div (by decide),
    Nat.div_eq_of_lt below, Nat.add_zero,
    toDigits_digitsValue canonical.whole_digits canonical.nonempty canonical.front]

end LoxLang.Number
