import Dimensional.Prime
import Mathlib.Data.Nat.Prime.Basic
import Mathlib.Data.Nat.Sqrt
import Mathlib.NumberTheory.Bertrand

/-! Trial division decides primality, so that dimensions are told apart by primes indeed. -/

namespace Dimensional.Prime

variable {n m divisor candidate after prime : Nat} {result : Bool}

theorem word?_eq_some (h : word? n = some m) : m = n ∧ n < 2 ^ 64 := by
  unfold word? at h
  split at h
  · rename_i fits
    cases h
    exact ⟨rfl, fits⟩
  · cases h

/-- The numbers from the divisor to the square root do not divide. -/
def Undivided (n divisor : Nat) : Prop := ∀ m, divisor ≤ m → m * m ≤ n → ¬ m ∣ n

theorem undivided_of_large (large : ¬ divisor * divisor ≤ n) : Undivided n divisor := by
  intro m from_ small
  exact absurd (Nat.le_trans (Nat.mul_le_mul from_ from_) small) large

theorem undivided_iff_succ (leaves : ¬ divisor ∣ n) :
    Undivided n divisor ↔ Undivided n (divisor + 1) := by
  constructor
  · intro undivided m above
    exact undivided m (Nat.le_of_succ_le above)
  · intro undivided m above
    rcases Nat.eq_or_lt_of_le above with rfl | further
    · exact fun _ => leaves
    · exact undivided m further

theorem undivided?_eq_some (h : undivided? n divisor = some result) :
    result = true ↔ Undivided n divisor := by
  induction divisor using undivided?.induct n with
  | case1 divisor ih =>
    rw [undivided?] at h
    obtain ⟨square, _, h⟩ := Option.bind_eq_some_iff.mp h
    split at h
    · rename_i small
      split at h
      · rename_i divides
        cases h
        have divided : ¬ Undivided n divisor := fun undivided =>
          undivided divisor (Nat.le_refl _) small (Nat.dvd_of_mod_eq_zero divides)
        simp [divided]
      · rename_i leaves
        obtain ⟨next, _, h⟩ := Option.bind_eq_some_iff.mp h
        rw [undivided_iff_succ fun divides => leaves (Nat.mod_eq_zero_of_dvd divides)]
        exact ih small h
    · rename_i large
      cases h
      simp [undivided_of_large large]

theorem undivided_two_iff (atLeast : 2 ≤ n) : Undivided n 2 ↔ n.Prime := by
  rw [Nat.prime_def_le_sqrt]
  simp only [Undivided, Nat.le_sqrt, atLeast, true_and]

theorem isPrime?_eq_some (h : isPrime? n = some result) : result = true ↔ n.Prime := by
  unfold isPrime? at h
  split at h
  · rename_i small
    cases h
    have composite : ¬ n.Prime := fun prime => Nat.not_lt.mpr prime.two_le small
    simp [composite]
  · rename_i large
    rw [undivided?_eq_some h, undivided_two_iff (Nat.not_lt.mp large)]

/-- The search passes over composite numbers only. -/
theorem primeFrom?_eq_some (h : primeFrom? candidate = some prime) (fits : candidate < 2 ^ 64) :
    prime.Prime ∧ prime < 2 ^ 64 ∧ candidate ≤ prime ∧ ∀ m, candidate ≤ m → m < prime → ¬ m.Prime := by
  induction candidate using primeFrom?.induct with
  | case1 candidate ih =>
    rw [primeFrom?] at h
    obtain ⟨found, decided, h⟩ := Option.bind_eq_some_iff.mp h
    have decides := isPrime?_eq_some decided
    split at h
    · rename_i isPrime
      cases h
      refine ⟨decides.mp isPrime, fits, Nat.le_refl _, ?_⟩
      intro m from_ below
      omega
    · rename_i composite
      split at h
      · rename_i nextFits
        obtain ⟨isPrime, primeFits, above, least⟩ := ih nextFits h nextFits
        refine ⟨isPrime, primeFits, Nat.le_of_succ_le above, ?_⟩
        intro m from_ below
        rcases Nat.eq_or_lt_of_le from_ with rfl | further
        · exact fun prime => composite (decides.mpr prime)
        · exact least m further below
      · cases h

/-- The next prime is the least one above. -/
theorem nextPrime?_eq_some (h : nextPrime? after = some prime) :
    prime.Prime ∧ prime < 2 ^ 64 ∧ after < prime ∧ ∀ m, after < m → m < prime → ¬ m.Prime := by
  unfold nextPrime? at h
  obtain ⟨first, word, h⟩ := Option.bind_eq_some_iff.mp h
  obtain ⟨rfl, fits⟩ := word?_eq_some word
  exact primeFrom?_eq_some h fits

theorem word?_of_lt (fits : n < 2 ^ 64) : word? n = some n := if_pos fits

/-- The greatest square that fits into 64 bits. -/
def greatestSquare : Nat := (2 ^ 32 - 1) * (2 ^ 32 - 1)

theorem square_lt (small : divisor < 2 ^ 32) : divisor * divisor < 2 ^ 64 := by
  calc divisor * divisor
    _ ≤ (2 ^ 32 - 1) * (2 ^ 32 - 1) := Nat.mul_le_mul (by omega) (by omega)
    _ < 2 ^ 64 := by norm_num

theorem succ_lt_of_square_lt (below : divisor * divisor < greatestSquare) :
    divisor + 1 < 2 ^ 32 := by
  by_contra large
  have above : greatestSquare ≤ divisor * divisor := Nat.mul_le_mul (by omega) (by omega)
  omega

/-- Below the greatest square no divisor that is tried grows out of the range: one whose square is
not above the number is below 32 bits. -/
theorem undivided?_isSome (reached : n < greatestSquare) (small : divisor < 2 ^ 32) :
    (undivided? n divisor).isSome := by
  induction divisor using undivided?.induct n with
  | case1 divisor ih =>
    rw [undivided?, word?_of_lt (square_lt small), Option.bind_some]
    split
    · rename_i below
      split
      · rfl
      · have next := succ_lt_of_square_lt (Nat.lt_of_le_of_lt below reached)
        rw [word?_of_lt (by omega), Option.bind_some]
        exact ih below next
    · rfl

theorem isPrime?_isSome (reached : n < greatestSquare) : (isPrime? n).isSome := by
  unfold isPrime?
  split
  · rfl
  · exact undivided?_isSome reached (by norm_num)

theorem lt_of_lt_greatestSquare (reached : n < greatestSquare) : n + 1 < 2 ^ 64 := by
  unfold greatestSquare at reached
  omega

/-- A search that starts below a prime ends there at the latest. -/
theorem primeFrom?_isSome (isPrime : m.Prime) (reached : m < greatestSquare)
    (below : candidate ≤ m) : (primeFrom? candidate).isSome := by
  induction candidate using primeFrom?.induct with
  | case1 candidate ih =>
    obtain ⟨found, decided⟩ :=
      Option.isSome_iff_exists.mp (isPrime?_isSome (Nat.lt_of_le_of_lt below reached))
    have decides := isPrime?_eq_some decided
    rw [primeFrom?, decided, Option.bind_some]
    split
    · rfl
    · rename_i composite
      have further : candidate + 1 ≤ m := by
        refine Nat.lt_of_le_of_ne below ?_
        rintro rfl
        exact composite (decides.mpr isPrime)
      have fits : candidate + 1 < 1 <<< 64 :=
        lt_of_lt_greatestSquare (Nat.lt_of_le_of_lt below reached)
      rw [dif_pos fits]
      exact ih fits further

/-- The search succeeds where there is a prime to be found. -/
theorem nextPrime?_isSome_of_prime (isPrime : m.Prime) (reached : m < greatestSquare)
    (above : after < m) : (nextPrime? after).isSome := by
  have fits := lt_of_lt_greatestSquare (Nat.lt_trans above reached)
  rw [nextPrime?, word?_of_lt fits, Option.bind_some]
  exact primeFrom?_isSome isPrime reached above

/-- There is a prime between a number and its double. -/
theorem exists_prime_lt_greatestSquare (small : after ≤ 2 ^ 62) :
    ∃ m, m.Prime ∧ m < greatestSquare ∧ after < m := by
  by_cases none : after = 0
  · exact ⟨2, Nat.prime_two, by decide, by omega⟩
  · obtain ⟨m, isPrime, above, atMost⟩ := Nat.exists_prime_lt_and_le_two_mul after none
    have half : m ≤ 2 ^ 63 := by omega
    exact ⟨m, isPrime, Nat.lt_of_le_of_lt half (by decide), above⟩

theorem nextPrime?_isSome (small : after ≤ 2 ^ 62) : (nextPrime? after).isSome := by
  obtain ⟨m, isPrime, reached, above⟩ := exists_prime_lt_greatestSquare small
  exact nextPrime?_isSome_of_prime isPrime reached above

end Dimensional.Prime
