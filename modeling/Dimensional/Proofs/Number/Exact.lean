import Dimensional.Number.Power
import Mathlib.Algebra.Field.Rat
import Mathlib.Algebra.GroupWithZero.Basic
import Mathlib.Tactic.NormNum
import Mathlib.Tactic.Ring

/-! The rational numbers that doubles stand for. The integers among them are told by arithmetic on
natural numbers. -/

namespace Dimensional.Number

/-- The rational number that a finite double is. -/
def Exact.rat? : Exact → Option ℚ
  | .finite negative significand power =>
    some ((if negative then -(significand : ℚ) else significand) * 2 ^ power)
  | .nan | .infinite _ => none

/-- A double stands for a rational number; no number stands for NaN or an infinity. -/
def Denotes (x : Float) (value : ℚ) : Prop := (exact x).rat? = some value

/-- The integer that a double stands for, if it stands for one. -/
def whole? (x : Float) : Option ℤ := do
  let value ← (exact x).rat?
  if value.den = 1 then some value.num else none

/-- A quotient of natural numbers is an integer exactly if nothing remains. -/
theorem div_eq_int_iff {magnitude divisor : Nat} (positive : 0 < divisor) {n : ℤ} :
    (magnitude : ℚ) / divisor = n ↔
      magnitude % divisor = 0 ∧ ((magnitude / divisor : Nat) : ℤ) = n := by
  have nonzero : (divisor : ℚ) ≠ 0 := by exact_mod_cast positive.ne'
  rw [div_eq_iff nonzero]
  constructor
  · intro product
    have whole : (magnitude : ℤ) = n * divisor := by exact_mod_cast product
    have divides : (divisor : ℤ) ∣ magnitude := Dvd.intro_left n whole.symm
    refine ⟨Nat.mod_eq_zero_of_dvd (by exact_mod_cast divides), ?_⟩
    rw [Int.natCast_div, whole, Int.mul_ediv_cancel _ (by exact_mod_cast positive.ne')]
  · rintro ⟨divides, rfl⟩
    have whole : magnitude / divisor * divisor = magnitude :=
      Nat.div_mul_cancel (Nat.dvd_of_mod_eq_zero divides)
    exact_mod_cast whole.symm

/-- One of the two powers is 1. -/
theorem two_zpow_eq (power : ℤ) :
    (2 : ℚ) ^ power = (2 ^ power.toNat : Nat) / (2 ^ (-power).toNat : Nat) := by
  have difference : power = power.toNat - (-power).toNat := by omega
  conv_lhs => rw [difference, zpow_sub₀ two_ne_zero, zpow_natCast, zpow_natCast]
  push_cast
  rfl

theorem Exact.toInt?_eq_some_iff {x : Exact} {n : ℤ} :
    x.toInt? = some n ↔ x.rat? = some (n : ℚ) := by
  cases x with
  | nan | infinite => simp [toInt?, rat?]
  | finite negative significand power =>
    have positive : 0 < 2 ^ (-power).toNat := Nat.two_pow_pos _
    have magnitude : (significand : ℚ) * 2 ^ power =
        (significand * 2 ^ power.toNat : Nat) / (2 ^ (-power).toNat : Nat) := by
      rw [two_zpow_eq]
      push_cast
      ring
    unfold toInt? rat?
    dsimp only
    rw [Nat.shiftLeft_eq, Nat.one_shiftLeft, Option.some_inj]
    cases negative with
    | false =>
      simp only [Bool.false_eq_true, ↓reduceIte]
      rw [magnitude, div_eq_int_iff positive]
      simp
    | true =>
      have opposite : -(significand : ℚ) * 2 ^ power = n ↔
          (significand : ℚ) * 2 ^ power = (-n : ℤ) := by
        push_cast
        rw [neg_mul, neg_eq_iff_eq_neg]
      simp only [↓reduceIte]
      rw [opposite, magnitude, div_eq_int_iff positive]
      simp [neg_eq_iff_eq_neg]

variable {x : Float} {value : ℚ}

/-- The integers among the doubles. -/
theorem toInt?_eq_some_iff {n : ℤ} : toInt? x = some n ↔ Denotes x n := Exact.toInt?_eq_some_iff

theorem whole?_eq_some_iff {n : ℤ} : whole? x = some n ↔ Denotes x n := by
  have integer (value : ℚ) : (value.den = 1 ∧ value.num = n) ↔ value = n := by
    constructor
    · rintro ⟨whole, rfl⟩
      exact (Rat.den_eq_one_iff value).mp whole |>.symm
    · rintro rfl
      exact ⟨Rat.den_intCast n, Rat.num_intCast n⟩
  simp [whole?, Denotes, Option.bind_eq_some_iff, integer]

theorem whole?_eq_toInt? : whole? x = toInt? x :=
  Option.ext fun _ => whole?_eq_some_iff.trans toInt?_eq_some_iff.symm

theorem Denotes.unique {other : ℚ} (denotes : Denotes x value) (more : Denotes x other) :
    value = other :=
  Option.some.inj (denotes.symm.trans more)

/-- A number that is no integer. -/
theorem Denotes.toInt?_eq_none (denotes : Denotes x value) (fractional : value.den ≠ 1) :
    toInt? x = none := by
  cases whole : toInt? x with
  | none => rfl
  | some n =>
    obtain rfl := denotes.unique (toInt?_eq_some_iff.mp whole)
    exact absurd (Rat.den_intCast n) fractional

theorem Denotes.isInfinite_eq_false (denotes : Denotes x value) : isInfinite x = false := by
  unfold Denotes at denotes
  unfold isInfinite
  cases same : exact x with
  | infinite negative =>
    rw [same] at denotes
    cases denotes
  | nan | finite => rfl

end Dimensional.Number
