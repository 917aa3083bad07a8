import Mathlib
import Rulebook.Decimal.Numeral

/-!
# Whole parts

A finite binary64 value is a whole mantissa with a sign, times a power of two, and so it denotes a
rational number. Its whole part is this number without its fraction, as a decimal numeral, unless
that is beyond the range of signed 64-bit integers: then it is the nearest end of the range.
-/

namespace Rulebook.Decimal

open Float.Model.UnpackedFloat (Sign ExtendedMantissa roundToInt)

/-- The rational number that a finite value denotes. The other values denote none, and have zero
here. -/
def rational (value : Float) : ℚ :=
  match value.toModel.unpack with
  | .finite sign mantissa exponent _ => (sign.apply mantissa : ℤ) * 2 ^ exponent
  | _ => 0

/-- A rational number without its fraction. -/
def truncated (number : ℚ) : ℤ := if 0 ≤ number then ⌊number⌋ else ⌈number⌉

/-- A whole number in the range of signed 64-bit integers. -/
def Fits (whole : ℤ) : Prop := -2 ^ 63 ≤ whole ∧ whole < 2 ^ 63

instance (whole : ℤ) : Decidable (Fits whole) := inferInstanceAs (Decidable (_ ∧ _))

/-- The whole number in the range of signed 64-bit integers that is nearest to a given one. -/
def clamped (whole : ℤ) : ℤ := max (-2 ^ 63) (min whole (2 ^ 63 - 1))

/-- Just the numbers in the range stay. -/
theorem clamped_eq_self_iff {whole : ℤ} : clamped whole = whole ↔ Fits whole := by
  unfold clamped Fits
  omega

/-- Moving a mantissa to the right divides it by a power of two. -/
theorem mantissa_shiftRight (extended : ExtendedMantissa) (places : ℕ) :
    (extended >>> places).mantissa = extended.mantissa / 2 ^ places := by
  induction places with
  | zero => exact (Nat.div_one _).symm
  | succ places ih =>
    have hstep : (extended >>> (places + 1)).mantissa = (extended >>> places).mantissa / 2 := rfl
    rw [hstep, ih, Nat.div_div_eq_div_mul, Nat.pow_succ]

/-- A mantissa is moved to the left for a power that is positive, and to the right for one that is
negative. -/
theorem roundToInt_eq (sign : Sign) (mantissa : ℕ) (exponent : ℤ) :
    roundToInt sign mantissa exponent =
      sign.apply ((mantissa * 2 ^ exponent.toNat / 2 ^ (-exponent).toNat : ℕ) : ℤ) := by
  have hplaces : (0 - (exponent - ((exponent - 0).toNat : ℤ))).toNat = (-exponent).toNat := by omega
  have hmantissa : (ExtendedMantissa.ofMantissaAndAccuracy
      (mantissa <<< (exponent - 0).toNat) .exact).mantissa = mantissa * 2 ^ exponent.toNat := by
    rw [Int.sub_zero]
    exact Nat.shiftLeft_eq _ _
  unfold roundToInt Float.Model.UnpackedFloat.decreaseExponent
    Float.Model.UnpackedFloat.shiftToExponent
  simp only [mantissa_shiftRight, hmantissa, hplaces]

/-- A power of two with a whole exponent is a quotient of two natural powers. -/
theorem mul_two_zpow (mantissa : ℕ) (exponent : ℤ) :
    (mantissa : ℚ) * 2 ^ exponent =
      ((mantissa * 2 ^ exponent.toNat : ℕ) : ℤ) / ((2 ^ (-exponent).toNat : ℕ) : ℚ) := by
  have hsplit : exponent = (exponent.toNat : ℤ) - ((-exponent).toNat : ℤ) := by omega
  have htwo : (2 : ℚ) ≠ 0 := two_ne_zero
  conv_lhs => rw [hsplit, zpow_sub₀ htwo, zpow_natCast, zpow_natCast]
  push_cast
  rw [mul_div_assoc]

/-- The sign does not take part in truncation. -/
theorem truncated_apply (sign : Sign) (mantissa : ℕ) (exponent : ℤ) :
    truncated ((sign.apply mantissa : ℤ) * 2 ^ exponent) =
      sign.apply ⌊(mantissa : ℚ) * 2 ^ exponent⌋ := by
  have hnonneg : 0 ≤ (mantissa : ℚ) * 2 ^ exponent :=
    mul_nonneg (Nat.cast_nonneg _) (zpow_nonneg zero_le_two _)
  cases sign with
  | positive => exact if_pos hnonneg
  | negative =>
    have hneg : ((Sign.negative.apply mantissa : ℤ) : ℚ) * 2 ^ exponent =
        -((mantissa : ℚ) * 2 ^ exponent) := by
      simp [Sign.apply]
    rw [hneg, truncated]
    split
    · next h =>
      have hzero : (mantissa : ℚ) * 2 ^ exponent = 0 := le_antisymm (neg_nonneg.mp h) hnonneg
      simp [hzero, Sign.apply]
    · exact Int.ceil_neg

/-- Without its fraction a finite value is the mantissa moved by its exponent. -/
theorem truncated_eq_roundToInt (sign : Sign) (mantissa : ℕ) (exponent : ℤ) :
    truncated ((sign.apply mantissa : ℤ) * 2 ^ exponent) =
      roundToInt sign mantissa exponent := by
  rw [truncated_apply, roundToInt_eq, mul_two_zpow, Rat.floor_intCast_div_natCast,
    Int.natCast_ediv]

/-- The conversion of a whole number to 64 bits clamps it. -/
theorem toInt_ofIntClamp (whole : ℤ) : (Int64.ofIntClamp whole).toInt = clamped whole := by
  have hmin : Int64.minValue.toInt = -2 ^ 63 := rfl
  have hmax : Int64.maxValue.toInt = 2 ^ 63 - 1 := rfl
  unfold Int64.ofIntClamp clamped
  split
  · next hlow =>
    split
    · next hhigh =>
      rw [Int64.toInt_ofIntLE]
      omega
    · omega
  · omega

/-- Without its fraction a finite value is what its conversion to a whole number gives, whatever is
given for the infinite values. -/
theorem toInt_eq_truncated {value : Float} (h : value.isFinite = true) (low high : ℤ) :
    value.toModel.unpack.toInt low high = truncated (rational value) := by
  have hfinite : value.toModel.unpack.isFinite = true := h
  unfold rational
  cases hunpack : value.toModel.unpack with
  | notANumber => simp [hunpack, Float.Model.UnpackedFloat.isFinite] at hfinite
  | infinity sign => simp [hunpack, Float.Model.UnpackedFloat.isFinite] at hfinite
  | zero sign => rfl
  | finite sign mantissa exponent positive =>
    exact (truncated_eq_roundToInt sign mantissa exponent).symm

/-- A negative value with a fraction, and the smallest positive one. -/
example : rational (-2.5) = -5 / 2 ∧ truncated (rational (-2.5)) = -2 ∧
    rational (Float.ofBits 1) = 1 / 2 ^ 1074 := by
  decide +kernel

/-- The whole part of a finite value is the number that it denotes without its fraction, or the
nearest end of the range. -/
theorem wholePart_eq {value : Float} (h : value.isFinite = true) :
    wholePart value = toString (clamped (truncated (rational value))) := by
  rw [wholePart, Float.Model.toInt64, Float.Model.UnpackedFloat.toInt64, toInt_ofIntClamp,
    toInt_eq_truncated h]

end Rulebook.Decimal
