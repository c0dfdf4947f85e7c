import Dimensional.Proofs.Number.Exact
import Mathlib

/-! Zeros raised to a number. Few powers of a zero are that zero again. -/

namespace Dimensional.Number

open Float.Model

variable {x base exponent : Float}

theorem eq_or_eq_neg_of_beq_zero (zero : (x == 0.0) = true) : x = 0.0 ∨ x = -0.0 := by
  obtain ⟨_, _, same | ⟨same, _⟩ | ⟨same, _⟩⟩ := Float.beq_iff_ne_nan_and_eq.mp zero
  · exact .inl same
  · exact .inl same
  · exact .inr same

/-- Both zeros stand for 0. -/
theorem denotes_zero (zero : (x == 0.0) = true) : Denotes x 0 := by
  have whole : toInt? x = some 0 := by
    rcases eq_or_eq_neg_of_beq_zero zero with rfl | rfl <;> decide +kernel
  exact_mod_cast toInt?_eq_some_iff.mp whole

/-- No number is on both sides of zero. -/
theorem not_lt_zero_of_zero_lt (positive : 0.0 < x) : ¬ x < 0.0 := by
  intro negative
  have above : (UnpackedFloat.zero .positive).lt x.toModel.unpack = true :=
    of_decide_eq_true positive
  have below : x.toModel.unpack.lt (.zero .positive) = true := of_decide_eq_true negative
  cases same : x.toModel.unpack with
  | notANumber =>
    rw [same] at above
    cases above
  | zero sign =>
    rw [same] at above
    cases above
  | infinity sign =>
    rw [same] at above below
    cases sign with
    | positive => cases below
    | negative => cases above
  | finite sign mantissa exponent =>
    rw [same] at above below
    cases sign with
    | positive => cases below
    | negative => cases above

/-- A zero divides one to an infinity. -/
theorem one_div_ne (divisor : (x == 0.0) = true) (zero : (base == 0.0) = true) : 1.0 / x ≠ base := by
  rcases eq_or_eq_neg_of_beq_zero divisor with rfl | rfl <;>
    rcases eq_or_eq_neg_of_beq_zero zero with rfl | rfl <;> decide +kernel

theorem powerOfZero_eq_self_iff (zero : (base == 0.0) = true) (nonzero : (exponent == 0.0) = false) :
    powerOfZero base exponent = base ↔
      0.0 < exponent ∧ (isOdd exponent = true ∨ base = 0.0) := by
  unfold powerOfZero
  dsimp only
  by_cases negative : exponent < 0.0
  · have below : ¬ 0.0 < exponent := fun positive => not_lt_zero_of_zero_lt positive negative
    have signed : ((if isOdd exponent then base else 0.0) == 0.0) = true := by
      split
      · exact zero
      · decide +kernel
    rw [if_pos negative]
    exact ⟨fun same => absurd same (one_div_ne signed zero), fun both => absurd both.1 below⟩
  · rw [if_neg negative]
    by_cases positive : 0.0 < exponent
    · rw [if_pos positive]
      by_cases odd : isOdd exponent = true
      · simp [odd, positive]
      · simp [odd, positive, eq_comm]
    · rw [if_neg positive]
      -- What is neither below nor above zero, nor zero, is NaN.
      have differs : exponent ≠ base := by
        rintro rfl
        rw [zero] at nonzero
        cases nonzero
      exact ⟨fun same => absurd same differs, fun both => absurd both.1 positive⟩

/-- A zero to a power other than zero is that zero again if the power is positive and keeps its
sign. -/
theorem power_eq_self_iff (zero : (base == 0.0) = true) (nonzero : (exponent == 0.0) = false) :
    power base exponent = base ↔ 0.0 < exponent ∧ (isOdd exponent = true ∨ base = 0.0) := by
  rw [power, if_neg (Bool.eq_false_iff.mp nonzero), if_pos zero]
  exact powerOfZero_eq_self_iff zero nonzero

end Dimensional.Number
