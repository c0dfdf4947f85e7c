import Dimensional.Proofs.Prime
import Mathlib.NumberTheory.Chebyshev
import Mathlib.NumberTheory.PrimeCounting

/-! There are more primes within 64 bits than dimensions can be declared. -/

namespace Dimensional.Prime

/-- The least common multiple of the first numbers is a product of powers of primes, none of which
is above the last of these numbers. -/
theorem lcmUpto_le (n : Nat) : n.lcmUpto ≤ n ^ Nat.count Nat.Prime (n + 1) := by
  rw [Nat.lcmUpto_eq_prod_pow_log, Nat.count_eq_card_filter_range]
  refine Finset.prod_le_pow_card _ _ _ fun p member => Nat.pow_log_le_self p ?_
  rintro rfl
  rw [Nat.primesLE_zero] at member
  exact absurd member (Finset.notMem_empty p)

/-- The least common multiple is large, so that there are many primes. -/
theorem two_pow_le (n : Nat) : 2 ^ n ≤ (n + 1) ^ (Nat.count Nat.Prime (n + 1) + 1) := by
  calc 2 ^ n
    _ ≤ (n + 1) * n.lcmUpto := Chebyshev.two_pow_le_mul_lcmUpto n
    _ ≤ (n + 1) * (n + 1) ^ Nat.count Nat.Prime (n + 1) := by
      refine Nat.mul_le_mul_left _ ((lcmUpto_le n).trans (Nat.pow_le_pow_left n.le_succ _))
    _ = (n + 1) ^ (Nat.count Nat.Prime (n + 1) + 1) := (pow_succ' _ _).symm

/-- Among the numbers of so many bits, one in as many is prime at least. -/
theorem le_mul_count (n bits : Nat) (fits : n + 1 ≤ 2 ^ bits) :
    n ≤ bits * (Nat.count Nat.Prime (n + 1) + 1) := by
  have powers : 2 ^ n ≤ 2 ^ (bits * (Nat.count Nat.Prime (n + 1) + 1)) := by
    rw [pow_mul]
    exact (two_pow_le n).trans (Nat.pow_le_pow_left fits _)
  exact (Nat.pow_le_pow_iff_right (by decide)).mp powers

theorem nth_lt_greatestSquare {k : Nat} (few : k < 3 * 2 ^ 56) :
    Nat.nth Nat.Prime k < greatestSquare := by
  refine Nat.nth_lt_of_lt_count ?_
  have many := le_mul_count (greatestSquare - 1) 64 (by decide)
  have square : greatestSquare = 2 ^ 64 - 2 ^ 33 + 1 := by decide
  rw [square, Nat.add_sub_cancel] at many
  rw [square]
  omega

end Dimensional.Prime
