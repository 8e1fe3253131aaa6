import LoxLang.Proofs.Number.Decimal
import LoxLang.Proofs.Number.Rounding

/-! The text of a finite double. It is a sign where the sign bit is set, and then the canonical decimal of the
multiple of `10 ^ -6` that is nearest to the absolute value, taken exactly. Only one text fits that. -/
namespace LoxLang.Number

/-- The absolute value of a finite double, by the fields of its bits. -/
def magnitude (bits : Nat) : ℚ :=
  if exponentField bits = 0 then fractionField bits * 2 ^ (-1074 : ℤ)
  else (2 ^ 52 + fractionField bits) * 2 ^ ((exponentField bits : ℤ) - 1075)

def denoted (whole fraction : List Char) : ℚ :=
  digitsValue (whole ++ fraction) / 10 ^ fraction.length

/-- The value is the multiple of `10 ^ -places` nearest to `x`. Where another one is as near, the last digit of
this one is even. -/
structure Rounded (x value : ℚ) : Prop where
  multiple : ∃ n : ℕ, value = n / 10 ^ places
  nearest : ∀ m : ℤ, |x - value| ≤ |x - m / 10 ^ places|
  even : ∀ m : ℤ, m / 10 ^ places ≠ value → |x - m / 10 ^ places| = |x - value| →
    ∃ n : ℕ, value = (2 * n : ℕ) / 10 ^ places

def sign (bits : Nat) : List Char :=
  if isNegative bits then ['-'] else []

/-- The text is the rounded decimal of a finite double in canonical form. -/
def Rendered (bits : Nat) (text : List Char) : Prop :=
  ∃ whole fraction, text = sign bits ++ (Piece.numeral whole fraction).chars ∧ Canonical whole fraction ∧
    Rounded (magnitude bits) (denoted whole fraction)

/-! The exact value. -/

theorem one_eq : (one : ℚ) = 2 ^ (1074 : ℤ) := by
  have power : one = 2 ^ 1074 := by decide +kernel
  rw [power, Nat.cast_pow, Nat.cast_ofNat, ← zpow_natCast, Nat.cast_ofNat]

theorem units_eq (bits : Nat) : (units bits : ℚ) = magnitude bits * one := by
  rw [one_eq, magnitude]
  cases exponent : exponentField bits with
  | zero =>
    rw [units_of_zero exponent, if_pos rfl, mul_assoc, ← zpow_add₀ two_ne_zero]
    simp
  | succ shift =>
    rw [units_of_succ exponent, if_neg (Nat.succ_ne_zero shift), mul_assoc, ← zpow_add₀ two_ne_zero,
      show ((shift + 1 : ℕ) : ℤ) - 1075 + 1074 = shift by push_cast; ring, zpow_natCast]
    push_cast
    ring

theorem denoted_eq (whole : List Char) (short : fraction.length ≤ places) :
    denoted whole fraction = stepsOf whole fraction / 10 ^ places := by
  have split : (10 : ℚ) ^ places = 10 ^ fraction.length * 10 ^ (places - fraction.length) := by
    rw [← pow_add, Nat.add_sub_cancel' short]
  rw [denoted, stepsOf, split]
  push_cast
  rw [mul_div_mul_right _ _ (pow_ne_zero _ (by norm_num))]

/-! Rounding. -/

/-- A number that is off by at most a half leaves every other one off by at least that. -/
theorem half_le_other {x n m scale : ℤ} (error : |2 * (x - n * scale)| ≤ scale) (other : m ≠ n) :
    scale ≤ |2 * (x - m * scale)| := by
  obtain ⟨low, high⟩ := abs_le.mp error
  have nonneg : 0 ≤ scale := le_trans (abs_nonneg _) error
  rcases lt_or_gt_of_ne other with below | above
  · have gap : 1 * scale ≤ (n - m) * scale := mul_le_mul_of_nonneg_right (by omega) nonneg
    exact le_trans (by linarith) (le_abs_self _)
  · have gap : 1 * scale ≤ (m - n) * scale := mul_le_mul_of_nonneg_right (by omega) nonneg
    exact le_trans (by linarith) (neg_le_abs _)

section Quotient

variable {x : ℚ} {steps : ℤ} {scale : ℕ}

/-- How far a quotient is from a multiple, in whole numbers. -/
theorem distance_eq (positive : 0 < scale) (quotient : x * 10 ^ places * scale = steps) (m : ℤ) :
    |x - m / 10 ^ places| = (|2 * (steps - m * scale)| : ℤ) / (2 * scale * 10 ^ places) := by
  have weight : (0 : ℚ) < 2 * scale * 10 ^ places := by positivity
  have exact : (x - m / 10 ^ places) * (2 * scale * 10 ^ places) = 2 * (steps - m * scale) := by
    rw [← quotient]
    field_simp
  rw [eq_div_iff (ne_of_gt weight)]
  push_cast
  rw [← exact, abs_mul, abs_of_pos weight]

/-- Rounding to the nearest whole number of steps gives the nearest multiple. -/
theorem rounded_of_error {n : ℕ} (positive : 0 < scale) (quotient : x * 10 ^ places * scale = steps)
    (error : |2 * (steps - n * scale)| ≤ scale) (tie : |2 * (steps - n * scale)| = scale → n % 2 = 0) :
    Rounded x (n / 10 ^ places) := by
  have weight : (0 : ℚ) < 2 * scale * 10 ^ places := by positivity
  have distance := distance_eq positive quotient
  have chosen := distance n
  rw [Int.cast_natCast] at chosen
  refine ⟨⟨n, rfl⟩, fun m => ?_, fun m other same => ?_⟩
  · by_cases this : m = n
    · rw [this, Int.cast_natCast]
    · rw [chosen, distance m, div_le_div_iff_of_pos_right weight, Int.cast_le]
      exact le_trans error (half_le_other error this)
  · have different : m ≠ n := by
      rintro rfl
      exact other (by rw [Int.cast_natCast])
    rw [chosen, distance m, div_left_inj' (ne_of_gt weight), Int.cast_inj] at same
    have even : n % 2 = 0 := tie (le_antisymm error (same ▸ half_le_other error different))
    exact ⟨n / 2, by rw [Nat.mul_div_cancel' (Nat.dvd_of_mod_eq_zero even)]⟩

end Quotient

theorem rounded_steps (bits : Nat) : Rounded (magnitude bits) (steps bits / 10 ^ places) := by
  obtain ⟨error, tie⟩ := roundQuotient_error (units bits * 10 ^ places) one_pos
  rw [steps, Nat.pow_eq]
  refine rounded_of_error one_pos ?_ error tie
  rw [mul_right_comm, ← units_eq, Int.cast_natCast, Nat.cast_mul, Nat.cast_pow, Nat.cast_ofNat]

/-- Two even multiples that are equally near have another one between them. -/
theorem Rounded.unique (first : Rounded x a) (second : Rounded x b) : a = b := by
  by_contra different
  obtain ⟨n, rfl⟩ := first.multiple
  obtain ⟨m, rfl⟩ := second.multiple
  have same : |x - n / 10 ^ places| = |x - m / 10 ^ places| :=
    le_antisymm (by simpa using first.nearest m) (by simpa using second.nearest n)
  obtain ⟨i, half⟩ := first.even m (by simpa using Ne.symm different) (by simpa using same.symm)
  obtain ⟨j, half'⟩ := second.even n (by simpa using different) (by simpa using same)
  rcases abs_eq_abs.mp same with equal | opposite
  · exact different (by linarith)
  · have middle : x = (i + j : ℤ) / 10 ^ places := by
      push_cast at half half' ⊢
      linarith [add_div (i : ℚ) j (10 ^ places), mul_div_assoc 2 (i : ℚ) (10 ^ places),
        mul_div_assoc 2 (j : ℚ) (10 ^ places)]
    have near := first.nearest (i + j)
    have near' := second.nearest (i + j)
    rw [← middle, sub_self, abs_zero, abs_nonpos_iff] at near near'
    exact different (by linarith)

theorem Rendered.unique (first : Rendered bits t) (second : Rendered bits t') : t = t' := by
  obtain ⟨whole, fraction, rfl, canonical, rounded⟩ := first
  obtain ⟨whole', fraction', rfl, canonical', rounded'⟩ := second
  have value := rounded.unique rounded'
  rw [denoted_eq whole canonical.short, denoted_eq whole' canonical'.short,
    div_left_inj' (by positivity), Nat.cast_inj] at value
  rw [← decimal_stepsOf canonical, ← decimal_stepsOf canonical', value]

/-! The text. -/

theorem textOfBits_finite (finite : exponentField bits ≠ 2047) :
    (textOfBits bits).toList = sign bits ++ decimal (steps bits) := by
  simp only [textOfBits, if_neg finite, String.toList_ofList, sign]
  split
  · rw [trimDecimals_signed, List.singleton_append]
  · rw [List.nil_append, decimal]

theorem text_finite {bits : UInt64} (finite : exponentField bits.toNat ≠ 2047) :
    (text (.ofBits bits)).toList = sign bits.toNat ++ decimal (steps bits.toNat) := by
  rw [text, toBits_ofBits fun top => absurd top finite, textOfBits_finite finite]

theorem text_rendered {bits : UInt64} (finite : exponentField bits.toNat ≠ 2047) :
    Rendered bits.toNat (text (.ofBits bits)).toList := by
  obtain ⟨whole, fraction, written, canonical, value⟩ := decimal_canonical (steps bits.toNat)
  refine ⟨whole, fraction, by rw [text_finite finite, written], canonical, ?_⟩
  rw [denoted_eq whole canonical.short, value]
  exact rounded_steps bits.toNat

theorem decimal_whole (n : Nat) : decimal (n * 10 ^ places) = Nat.toDigits 10 n := by
  have canonical : Canonical (Nat.toDigits 10 n) [] :=
    ⟨Nat.toDigits_ne_nil, fun _ => isDigit_toDigits, head_toDigits n, List.forall_mem_nil _, Nat.zero_le _, by simp⟩
  have value : stepsOf (Nat.toDigits 10 n) [] = n * 10 ^ places := by
    rw [stepsOf, List.append_nil, digitsValue_toDigits, List.length_nil, Nat.sub_zero]
  rw [← value, decimal_stepsOf canonical, Piece.chars]

theorem steps_whole {n : Nat} (whole : units bits = n * one) : steps bits = n * 10 ^ places := by
  rw [steps, whole, Nat.pow_eq, Nat.mul_right_comm, roundQuotient_exact _ one_pos]

/-- The text of a finite double is its canonical rendering with at most six decimals, and no other text is: a sign
where the sign bit is set, and the decimal nearest to the exact absolute value. A whole number is written with all
its digits. -/
theorem text_is_canonical_rendering (bits : UInt64) (finite : exponentField bits.toNat ≠ 2047) :
    (∀ t : String, text (.ofBits bits) = t ↔ Rendered bits.toNat t.toList) ∧
      ∀ n : ℕ, magnitude bits.toNat = n →
        (text (.ofBits bits)).toList = sign bits.toNat ++ Nat.toDigits 10 n := by
  refine ⟨fun t => ⟨?_, fun rendered => ?_⟩, fun n whole => ?_⟩
  · rintro rfl
    exact text_rendered finite
  · exact String.toList_inj.mp ((text_rendered finite).unique rendered)
  · have exact : units bits.toNat = n * one := by
      have := units_eq bits.toNat
      rw [whole] at this
      exact_mod_cast this
    rw [text_finite finite, steps_whole exact, decimal_whole]

/-- A negative double that lies in the middle between two multiples. -/
theorem text_is_canonical_rendering_at_tie :
    let bits : UInt64 := 0xbf80000000000000
    exponentField bits.toNat ≠ 2047 ∧ magnitude bits.toNat = 0.0078125 ∧ text (.ofBits bits) = "-0.007812" ∧
      Rendered bits.toNat "-0.007812".toList := by
  intro bits
  have finite : exponentField bits.toNat ≠ 2047 := by decide
  have printed : text (.ofBits bits) = "-0.007812" := by decide +kernel
  refine ⟨finite, ?_, printed, ((text_is_canonical_rendering bits finite).1 _).mp printed⟩
  have exponent : exponentField bits.toNat = 1016 := by decide
  have fraction : fractionField bits.toNat = 0 := by decide
  rw [magnitude, exponent, fraction]
  norm_num

end LoxLang.Number
