import LoxLang.Number
import Mathlib

/-! The fields of a float's bits. A float keeps the bits that it is made of, and a numeral is read as the bits of
a number that is not negative. -/
namespace LoxLang.Number

section Fields

open Float.Model Float.Model.UnpackedFloat

theorem exponentField_eq (b : BitVec 64) : exponentField b.toNat = (@unpackExponent .binary64 b).toNat := by
  simp only [unpackExponent, BitVec.toNat_cast, BitVec.extractLsb_toNat, Nat.shiftRight_eq_div_pow]
  rfl

theorem fractionField_eq (b : BitVec 64) : fractionField b.toNat = (@unpackMantissa .binary64 b).toNat := by
  simp only [unpackMantissa, BitVec.toNat_cast, BitVec.extractLsb_toNat, Nat.shiftRight_eq_div_pow,
    Nat.pow_zero, Nat.div_one]
  rfl

theorem fractionField_top {bits : Nat} (small : bits ≤ infinity) (top : exponentField bits = 2047) :
    fractionField bits = 0 := by
  simp only [exponentField, fractionField, infinity, Nat.reducePow, Nat.pow_eq] at *
  omega

theorem isNegative_small {bits : Nat} (small : bits ≤ infinity) : isNegative bits = false := by
  simp only [isNegative, infinity, Nat.reducePow, Nat.pow_eq, beq_eq_false_iff_ne] at *
  omega

theorem not_isNaNBits {b : BitVec 64} (number : exponentField b.toNat = 2047 → fractionField b.toNat = 0) :
    ¬ @isNaNBits .binary64 b = true := by
  intro found
  obtain ⟨ones, nonzero⟩ := decide_eq_true_iff.mp found
  have top : exponentField b.toNat = 2047 := by
    rw [exponentField_eq, ones]
    rfl
  refine nonzero (BitVec.eq_of_toNat_eq ?_)
  rw [← fractionField_eq, number top]
  rfl

/-- A float keeps its bits as they are, unless they are those of a NaN. -/
theorem toBits_ofBits {bits : UInt64}
    (number : exponentField bits.toNat = 2047 → fractionField bits.toNat = 0) :
    (Float.ofBits bits).toBits = bits := by
  apply UInt64.toBitVec_inj.mp
  -- No smaller import than the whole library has the law that packing undoes unpacking.
  change UnpackedFloat.pack .binary64 (UnpackedFloat.unpack .binary64 bits.toBitVec) = bits.toBitVec
  rw [pack_unpack, if_neg (not_isNaNBits number)]

end Fields

theorem toBits_ofNumeral (whole fraction : List Char) :
    (ofNumeral whole fraction).toBits.toNat = min infinity (numeralBits whole fraction) := by
  have bound : min infinity (numeralBits whole fraction) ≤ infinity := Nat.min_le_left ..
  have fits : infinity < 2 ^ 64 := by decide
  have kept : (UInt64.ofNat (min infinity (numeralBits whole fraction))).toNat =
      min infinity (numeralBits whole fraction) := by
    rw [UInt64.toNat_ofNat', Nat.mod_eq_of_lt (Nat.lt_of_le_of_lt bound fits)]
  rw [ofNumeral, toBits_ofBits (by rw [kept]; exact fractionField_top bound), kept]

end LoxLang.Number
