import LoxLang.Number
import Mathlib.Algebra.Order.Ring.Int
import Mathlib.Tactic.Linarith
import Mathlib.Tactic.Ring

/-! Rounding a quotient. The whole number that is chosen is off by at most a half, it is the only one that is off by
less, and it is even where it is off by just a half. The double that is nearest to a quotient is found by rounding
once, so it is off by at most half of its last place. -/
namespace LoxLang

section Quotient

variable {num den : Nat}

/-- The quotient is rounded by at most a half, and a half is rounded to an even number. -/
theorem roundQuotient_error (num : Nat) (positive : 0 < den) :
    |2 * ((num : ℤ) - roundQuotient num den * den)| ≤ den ∧
      (|2 * ((num : ℤ) - roundQuotient num den * den)| = den → roundQuotient num den % 2 = 0) := by
  have below : num % den < den := Nat.mod_lt num positive
  have parts : (num : ℤ) = (num / den : ℕ) * den + (num % den : ℕ) := by
    exact_mod_cast (Nat.div_add_mod' num den).symm
  have down : (num : ℤ) - (num / den : ℕ) * den = (num % den : ℕ) := by linarith
  have up : (num : ℤ) - (num / den + 1 : ℕ) * den = (num % den : ℕ) - den := by
    rw [← down]
    push_cast
    ring
  simp only [roundQuotient]
  split
  · rw [up, abs_of_nonpos (by omega)]
    constructor <;> omega
  · rw [down, abs_of_nonneg (by omega)]
    constructor <;> omega

/-- A whole number that is off by less than a half is the one that is rounded to. -/
theorem roundQuotient_eq {n : Nat} (near : |2 * ((num : ℤ) - n * den)| < den) : roundQuotient num den = n := by
  have positive : 0 < den := by
    have := abs_nonneg (2 * ((num : ℤ) - n * den))
    omega
  obtain ⟨error, _⟩ := roundQuotient_error num positive
  obtain ⟨low, high⟩ := abs_lt.mp near
  obtain ⟨low', high'⟩ := abs_le.mp error
  have above : ((n : ℤ) - roundQuotient num den) * den < 1 * den := by linarith
  have under : -1 * den < ((n : ℤ) - roundQuotient num den) * den := by linarith
  have scale : (0 : ℤ) < den := by exact_mod_cast positive
  have small := lt_of_mul_lt_mul_right above scale.le
  have large := lt_of_mul_lt_mul_right under scale.le
  omega

theorem roundQuotient_exact (n : Nat) (positive : 0 < den) : roundQuotient (n * den) den = n := by
  apply roundQuotient_eq
  simpa using positive

theorem roundQuotient_dvd (divides : den ∣ num) (positive : 0 < den) : roundQuotient num den * den = num := by
  obtain ⟨k, rfl⟩ := divides
  rw [Nat.mul_comm den k, roundQuotient_exact k positive]

theorem roundQuotient_le {n : Nat} (positive : 0 < den) (small : num ≤ n * den) : roundQuotient num den ≤ n := by
  have quotient : num / den ≤ n := Nat.div_le_of_le_mul (by rwa [Nat.mul_comm])
  rcases Nat.lt_or_eq_of_le quotient with less | same
  · simp only [roundQuotient]
    split <;> omega
  · -- The quotient is a whole number, and nothing is left to round.
    have exact : num = n * den := Nat.le_antisymm small (same ▸ Nat.div_mul_le_self num den)
    rw [exact, roundQuotient_exact n positive]

theorem le_roundQuotient {n : Nat} (positive : 0 < den) (large : n * den ≤ num) : n ≤ roundQuotient num den := by
  have quotient : n ≤ num / den := (Nat.le_div_iff_mul_le positive).mpr large
  simp only [roundQuotient]
  split <;> omega

/-- Ties included: only the quotient matters, not how it is written. -/
theorem roundQuotient_scale (num den : Nat) {k : Nat} (positive : 0 < k) :
    roundQuotient (num * k) (den * k) = roundQuotient num den := by
  have more : den * k < 2 * (num % den * k) ↔ den < 2 * (num % den) := by
    rw [← Nat.mul_assoc, Nat.mul_lt_mul_right positive]
  have half : 2 * (num % den * k) = den * k ↔ 2 * (num % den) = den := by
    rw [← Nat.mul_assoc, Nat.mul_left_inj (Nat.ne_of_gt positive)]
  simp only [roundQuotient, Nat.mul_div_mul_right num den positive, Nat.mul_mod_mul_right, more, half]

end Quotient

namespace Number

theorem one_pos : 0 < one := by decide +kernel

theorem two_pow_dvd_one {k : Nat} (small : k ≤ 1074) : 2 ^ k ∣ one := by
  have power : one = 2 ^ 1074 := by decide +kernel
  rw [power]
  exact pow_dvd_pow 2 small

/-- The double that is nearest to a quotient depends on nothing else. -/
theorem nearest_scale (num den : Nat) {k : Nat} (positive : 0 < k) : nearest (num * k) (den * k) = nearest num den := by
  have scaled : num * k * one = num * one * k := Nat.mul_right_comm ..
  have divisor (shift : Nat) : den * k * Nat.pow 2 shift = den * Nat.pow 2 shift * k := Nat.mul_right_comm ..
  simp only [nearest, scaled, Nat.mul_div_mul_right _ den positive, divisor, roundQuotient_scale _ _ positive]

/-- The exponent of the last place of the double that is nearest to a quotient of units. -/
def shiftOf (scaled den : Nat) : Nat :=
  (scaled / den).log2 - 52

/-- Its significand. One that was rounded up to the next power of two is not shifted. -/
def significandOf (scaled den : Nat) : Nat :=
  roundQuotient scaled (den * 2 ^ shiftOf scaled den)

theorem nearest_eq (num den : Nat) :
    nearest num den = shiftOf (num * one) den * 2 ^ 52 + significandOf (num * one) den := rfl

section Significand

variable {scaled den : Nat}

/-- The bound is reached, where rounding carries into the next power of two. -/
theorem significandOf_le (scaled : Nat) (positive : 0 < den) : significandOf scaled den ≤ 2 ^ 53 := by
  have power : scaled / den < 2 ^ 53 * 2 ^ shiftOf scaled den := by
    rw [← Nat.pow_add]
    exact Nat.lt_of_lt_of_le Nat.lt_log2_self
      (Nat.pow_le_pow_right (by decide) (by unfold shiftOf; omega))
  apply roundQuotient_le (Nat.mul_pos positive (Nat.two_pow_pos _))
  rw [Nat.mul_left_comm, Nat.mul_comm]
  exact Nat.le_of_lt ((Nat.div_lt_iff_lt_mul positive).mp power)

theorem le_significandOf (positive : 0 < den) (shifted : shiftOf scaled den ≠ 0) :
    2 ^ 52 ≤ significandOf scaled den := by
  have large : scaled / den ≠ 0 := by
    intro zero
    rw [shiftOf, zero] at shifted
    contradiction
  have power : 2 ^ 52 * 2 ^ shiftOf scaled den ≤ scaled / den := by
    rw [← Nat.pow_add, show 52 + shiftOf scaled den = (scaled / den).log2 by unfold shiftOf at *; omega]
    exact Nat.log2_self_le large
  apply le_roundQuotient (Nat.mul_pos positive (Nat.two_pow_pos _))
  rw [Nat.mul_left_comm, Nat.mul_comm]
  exact (Nat.le_div_iff_mul_le positive).mp power

/-- The last place of a quotient below a power of two. -/
theorem shiftOf_le {k : Nat} (small : scaled < den * 2 ^ k) : shiftOf scaled den ≤ k - 53 := by
  have below : scaled / den < 2 ^ k := Nat.div_lt_of_lt_mul small
  unfold shiftOf
  rcases Nat.eq_zero_or_pos (scaled / den) with zero | some
  · rw [zero]
    exact Nat.zero_le _
  · have := (Nat.log2_lt (Nat.ne_of_gt some)).mpr below
    omega

end Significand

/-! A significand counts in units of its last place, whether it is below the least that is normal, normal, or the
power of two that carries into the exponent field. -/

theorem units_of_zero {bits : Nat} (zero : exponentField bits = 0) : units bits = fractionField bits := by
  rw [units, zero]

theorem units_of_succ {bits exponent : Nat} (succ : exponentField bits = exponent + 1) :
    units bits = (2 ^ 52 + fractionField bits) * 2 ^ exponent := by
  rw [units, succ]
  rfl

theorem fields_low {significand : Nat} (small : significand < 2 ^ 52) :
    exponentField significand = 0 ∧ fractionField significand = significand := by
  simp only [exponentField, fractionField, Nat.pow_eq]
  omega

theorem fields_high {shift significand : Nat} (low : 2 ^ 52 ≤ significand) (high : significand < 2 ^ 53)
    (finite : shift < 2046) :
    exponentField (shift * 2 ^ 52 + significand) = shift + 1 ∧
      fractionField (shift * 2 ^ 52 + significand) = significand - 2 ^ 52 := by
  simp only [exponentField, fractionField, Nat.pow_eq]
  omega

theorem fields_carried {shift : Nat} (finite : shift < 2045) :
    exponentField (shift * 2 ^ 52 + 2 ^ 53) = shift + 1 + 1 ∧ fractionField (shift * 2 ^ 52 + 2 ^ 53) = 0 := by
  simp only [exponentField, fractionField, Nat.pow_eq]
  omega

/-- Adding the significand to the shifted exponent carries into the exponent field, which is right for normal,
subnormal and carried significands alike. -/
theorem units_shifted {shift significand : Nat} (high : significand ≤ 2 ^ 53)
    (low : shift ≠ 0 → 2 ^ 52 ≤ significand) (finite : shift < 2045) :
    units (shift * 2 ^ 52 + significand) = significand * 2 ^ shift := by
  rcases Nat.lt_or_ge significand (2 ^ 52) with small | large
  · have unshifted : shift = 0 := by
      by_contra shifted
      exact absurd (low shifted) (Nat.not_le_of_lt small)
    obtain ⟨exponent, fraction⟩ := fields_low small
    rw [unshifted, Nat.zero_mul, Nat.zero_add, units_of_zero exponent, fraction, Nat.pow_zero, Nat.mul_one]
  · rcases Nat.lt_or_eq_of_le high with inside | carried
    · obtain ⟨exponent, fraction⟩ := fields_high large inside (Nat.lt_succ_of_lt finite)
      rw [units_of_succ exponent, fraction, Nat.add_sub_cancel' large]
    · obtain ⟨exponent, fraction⟩ := fields_carried finite
      rw [carried, units_of_succ exponent, fraction, Nat.add_zero, Nat.pow_succ 2 shift, Nat.mul_comm (2 ^ shift),
        ← Nat.mul_assoc, ← Nat.pow_succ]

/-! The nearest double to a quotient that is not too large. -/

section Nearest

variable {num den : Nat}

theorem units_nearest (positive : 0 < den) (finite : shiftOf (num * one) den < 2045) :
    units (nearest num den) = significandOf (num * one) den * 2 ^ shiftOf (num * one) den := by
  rw [nearest_eq]
  exact units_shifted (significandOf_le _ positive) (le_significandOf positive) finite

theorem nearest_lt_infinity (positive : 0 < den) (finite : shiftOf (num * one) den < 2045) :
    nearest num den < infinity := by
  have high := significandOf_le (num * one) positive
  rw [nearest_eq, show infinity = 2047 * 2 ^ 52 from rfl]
  omega

/-- The nearest double is off by at most half of its last place. -/
theorem nearest_error (positive : 0 < den) (finite : shiftOf (num * one) den < 2045) :
    |2 * (((num * one : ℕ) : ℤ) - units (nearest num den) * den)| ≤ den * 2 ^ shiftOf (num * one) den := by
  obtain ⟨error, _⟩ := roundQuotient_error (num * one)
    (Nat.mul_pos positive (Nat.two_pow_pos (shiftOf (num * one) den)))
  rw [units_nearest positive finite, significandOf]
  generalize num * one = scaled at error ⊢
  push_cast at error ⊢
  calc _ = |2 * ((scaled : ℤ) - roundQuotient scaled (den * 2 ^ shiftOf scaled den) *
        (den * 2 ^ shiftOf scaled den))| := by ring_nf
    _ ≤ _ := error

end Nearest

end Number
end LoxLang
