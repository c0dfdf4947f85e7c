import Mathlib

/-! Multiplying a double by one. The product of the significands is exact before it is rounded, and
rounding drops the zeros that the one has put behind the other factor. -/

namespace Dimensional.Number

open Float.Model Float.Model.UnpackedFloat

/-- What is shifted out is zeros. -/
theorem shiftRight_two_pow_mul (mantissa places : Nat) :
    ExtendedMantissa.ofMantissaAndAccuracy (2 ^ places * mantissa) .exact >>> places =
      ExtendedMantissa.mk mantissa false false := by
  induction places generalizing mantissa with
  | zero => simp [ExtendedMantissa.ofMantissaAndAccuracy, HShiftRight.hShiftRight, Nat.repeat]
  | succ places ih =>
    have earlier := ih (2 * mantissa)
    rw [← Nat.mul_assoc, ← pow_succ] at earlier
    change ExtendedMantissa.shiftRightOne
      (ExtendedMantissa.ofMantissaAndAccuracy (2 ^ (places + 1) * mantissa) .exact >>> places) = _
    rw [earlier]
    simp [ExtendedMantissa.shiftRightOne]

theorem log2_two_pow_mul {mantissa : Nat} (positive : 0 < mantissa) (places : Nat) :
    (2 ^ places * mantissa).log2 = places + mantissa.log2 := by
  obtain ⟨low, high⟩ := (Nat.log2_eq_iff positive.ne').mp rfl
  have nonzero : 2 ^ places * mantissa ≠ 0 := (Nat.mul_pos (Nat.two_pow_pos places) positive).ne'
  refine (Nat.log2_eq_iff nonzero).mpr ⟨?_, ?_⟩
  · rw [pow_add]
    exact Nat.mul_le_mul_left _ low
  · rw [Nat.add_assoc, pow_add]
    exact Nat.mul_lt_mul_of_pos_left high (Nat.two_pow_pos places)

theorem targetExponent_binary64 (total : Int) :
    Format.binary64.targetExponent total = max (total - 53) (-1074) := by
  rw [Format.targetExponent]
  rfl

/-- A leading bit in front of some bits is the most significant one. -/
theorem log2_one_append {width : Nat} (bits : BitVec width) :
    (1#1 ++ bits).toNat.log2 = width := by
  have small := bits.isLt
  have sum : (1#1 ++ bits).toNat = 2 ^ width + bits.toNat := by
    have lead := Nat.two_pow_add_eq_or_of_lt small (a := 1)
    rw [BitVec.toNat_append, BitVec.toNat_ofNat, Nat.shiftLeft_eq]
    simpa using lead.symm
  rw [sum]
  have nonzero : 2 ^ width + bits.toNat ≠ 0 := by positivity
  refine (Nat.log2_eq_iff nonzero).mpr ⟨Nat.le_add_right _ _, ?_⟩
  rw [pow_succ]
  omega

/-- The significand of a double is as long as its exponent allows. -/
theorem targetExponent_of_unpack {bits : BitVec Format.binary64.numBits} {sign : Sign}
    {mantissa : Nat} {exponent : Int} {positive : 0 < mantissa}
    (h : UnpackedFloat.unpack .binary64 bits = .finite sign mantissa exponent positive) :
    Format.binary64.targetExponent (totalExponent mantissa exponent) = exponent := by
  have bias : (Format.binary64.exponentBias : Int) = 1023 := rfl
  have small := (unpackMantissa bits).isLt
  rw [targetExponent_binary64, totalExponent]
  unfold UnpackedFloat.unpack at h
  dsimp only at h
  split at h
  · split at h <;> cases h
  · split at h
    · split at h
      · cases h
      · rename_i zero some
        injection h with _ sameMantissa sameExponent
        subst sameMantissa sameExponent
        have below := (Nat.log2_lt positive.ne').mpr small
        rw [zero, bias]
        dsimp only at below ⊢
        simp only [BitVec.toNat_ofNat, Nat.zero_mod]
        omega
    · rename_i normal
      injection h with _ sameMantissa sameExponent
      subst sameMantissa sameExponent
      have least : 0 < (unpackExponent bits).toNat := by
        rw [BitVec.toNat_pos, BitVec.pos_iff_ne_zero]
        exact normal
      rw [log2_one_append, bias]
      dsimp only
      omega

/-- Zeros behind a significand of its own length are dropped, and nothing is rounded. -/
theorem round_two_pow_mul (sign : Sign) {mantissa : Nat} {exponent : Int} (positive : 0 < mantissa)
    (canonical : Format.binary64.targetExponent (totalExponent mantissa exponent) = exponent)
    (places : Nat) :
    roundWithAccuracy .binary64 sign (2 ^ places * mantissa) (-places + exponent) .exact =
      .finite sign mantissa exponent positive := by
  have total : totalExponent (2 ^ places * mantissa) (-places + exponent) =
      totalExponent mantissa exponent := by
    rw [totalExponent, totalExponent, log2_two_pow_mul positive]
    push_cast
    ring
  have first : shiftToTargetExponent .binary64 (2 ^ places * mantissa) (-places + exponent) .exact =
      (.mk mantissa false false, exponent) := by
    rw [shiftToTargetExponent, total, canonical, shiftToExponent]
    have amount : (exponent - (-places + exponent)).toNat = places := by omega
    rw [amount, shiftRight_two_pow_mul]
    simp
  have second : shiftToTargetExponent .binary64 mantissa exponent .exact =
      (.mk mantissa false false, exponent) := by
    rw [shiftToTargetExponent, canonical, shiftToExponent]
    simp [ExtendedMantissa.ofMantissaAndAccuracy, HShiftRight.hShiftRight, Nat.repeat]
  rw [roundWithAccuracy, first]
  dsimp only [ExtendedMantissa.roundedMantissa, ExtendedMantissa.accuracy,
    Accuracy.roundToNearestEven]
  rw [second]
  exact dif_neg positive.ne'

/-- One changes no double, be it NaN or infinite. -/
theorem one_mul (x : Float) : 1.0 * x = x := by
  have one : (1.0 : Float).toModel.unpack = .finite .positive (2 ^ 52) (-52) (by decide) := rfl
  have product : mul .binary64 (1.0 : Float).toModel.unpack x.toModel.unpack = x.toModel.unpack := by
    rw [one]
    cases same : x.toModel.unpack with
    | notANumber => rfl
    | infinity sign => cases sign <;> rfl
    | zero sign => cases sign <;> rfl
    | finite sign mantissa exponent positive =>
      have rounded := round_two_pow_mul sign positive (targetExponent_of_unpack same) 52
      have positiveSign : Sign.positive * sign = sign := by cases sign <;> rfl
      rw [UnpackedFloat.mul, positiveSign]
      exact rounded
  change Float.ofModel (Float.Model.pack (mul _ _ _)) = x
  rw [product]
  exact Float.ofBits_toBits x

end Dimensional.Number
