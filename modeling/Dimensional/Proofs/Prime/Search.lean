import Dimensional.Proofs.Prime
import Mathlib.Logic.Relation
import Mathlib.Order.Bounds.Basic

/-! The search for a prime turn by turn. It comes to an end before anything in it grows beyond 64
bits. -/

namespace Dimensional.Prime

/-- Where the search has come to: the number that is examined and the divisor that is tried next. -/
structure Trial where
  candidate : Nat
  divisor : Nat

namespace Trial

/-- A number is examined from the least divisor on. -/
def start (candidate : Nat) : Trial := ⟨candidate, 2⟩

/-- One turn of the search: to the next number behind one that is not prime, or to the next divisor.
None is left where no divisor remains to be tried. -/
def next? (trial : Trial) : Option Trial :=
  if trial.candidate < 2 then some (start (trial.candidate + 1))
  else if trial.divisor * trial.divisor ≤ trial.candidate then
    if trial.candidate % trial.divisor = 0 then some (start (trial.candidate + 1))
    else some ⟨trial.candidate, trial.divisor + 1⟩
  else none

/-- Some turns lead from one trial to another. -/
def Reaches : Trial → Trial → Prop :=
  Relation.ReflTransGen fun trial later => trial.next? = some later

/-- What the search finds from a trial on. -/
def found? (trial : Trial) : Option Nat :=
  (if trial.candidate < 2 then some false
    else undivided? trial.candidate trial.divisor).bind fun prime =>
      if prime then some trial.candidate
      else if trial.candidate + 1 < 1 <<< 64 then primeFrom? (trial.candidate + 1)
      else none

/-- The results of all operations on the way to the next turn fit into 64 bits. -/
structure Fits (trial : Trial) : Prop where
  square : trial.divisor * trial.divisor < 2 ^ 64
  divisor : trial.divisor + 1 < 2 ^ 64
  candidate : trial.candidate + 1 < 2 ^ 64

/-- The search has not passed a prime, and tries divisors of 32 bits. -/
structure Within (prime : Nat) (trial : Trial) : Prop where
  candidate : trial.candidate ≤ prime
  nontrivial : 2 ≤ trial.divisor
  divisor : trial.divisor < 2 ^ 32

variable {trial later last : Trial} {prime candidate : Nat}

theorem within_start (le : candidate ≤ prime) : Within prime (start candidate) :=
  ⟨le, Nat.le_refl 2, Nat.lt_of_succ_lt (by decide : 2 + 1 < 2 ^ 32)⟩

theorem Within.fits (within : Within prime trial) (reached : prime < greatestSquare) :
    trial.Fits := by
  obtain ⟨notPassed, _, small⟩ := within
  exact ⟨square_lt small, by omega, lt_of_lt_greatestSquare (Nat.lt_of_le_of_lt notPassed reached)⟩

/-- A turn passes a number that is not prime, or a divisor that does not divide. -/
theorem next?_eq_some (turn : trial.next? = some later) :
    (later = start (trial.candidate + 1) ∧
      (trial.candidate < 2 ∨ trial.divisor * trial.divisor ≤ trial.candidate ∧
        trial.candidate % trial.divisor = 0)) ∨
    (later = ⟨trial.candidate, trial.divisor + 1⟩ ∧ ¬ trial.candidate < 2 ∧
      trial.divisor * trial.divisor ≤ trial.candidate ∧
      ¬ trial.candidate % trial.divisor = 0) := by
  unfold next? at turn
  split at turn
  · rename_i tiny
    cases turn
    exact .inl ⟨rfl, .inl tiny⟩
  · rename_i large
    split at turn
    · rename_i small
      split at turn
      · rename_i divides
        cases turn
        exact .inl ⟨rfl, .inr ⟨small, divides⟩⟩
      · rename_i leaves
        cases turn
        exact .inr ⟨rfl, large, small, leaves⟩
    · cases turn

theorem next?_eq_none (ends : trial.next? = none) :
    ¬ trial.candidate < 2 ∧ ¬ trial.divisor * trial.divisor ≤ trial.candidate := by
  unfold next? at ends
  split at ends
  · cases ends
  · rename_i large
    split at ends
    · split at ends <;> cases ends
    · rename_i beyond
      exact ⟨large, beyond⟩

/-- No turn passes a prime. -/
theorem Within.next (within : Within prime trial) (isPrime : prime.Prime)
    (reached : prime < greatestSquare) (turn : trial.next? = some later) : Within prime later := by
  obtain ⟨notPassed, nontrivial, small⟩ := within
  rcases next?_eq_some turn with ⟨rfl, composite⟩ | ⟨rfl, _, square, _⟩
  · refine within_start (Nat.lt_of_le_of_ne notPassed ?_)
    rintro rfl
    rcases composite with tiny | ⟨square, divides⟩
    · exact absurd isPrime.two_le (Nat.not_le_of_lt tiny)
    · have undivided := (undivided_two_iff isPrime.two_le).mpr isPrime
      exact undivided _ nontrivial square (Nat.dvd_of_mod_eq_zero divides)
  · have below := Nat.lt_of_le_of_lt (square.trans notPassed) reached
    exact ⟨notPassed, Nat.le_succ_of_le nontrivial, succ_lt_of_square_lt below⟩

theorem primeFrom?_eq_found? (candidate : Nat) : primeFrom? candidate = (start candidate).found? := by
  rw [primeFrom?]
  rfl

/-- What is found does not change with a turn whose operations fit into 64 bits. -/
theorem Fits.found?_next (fits : trial.Fits) (turn : trial.next? = some later) :
    later.found? = trial.found? := by
  obtain ⟨square, divisor, candidate⟩ := fits
  rcases next?_eq_some turn with ⟨rfl, composite⟩ | ⟨rfl, large, small, leaves⟩
  · have decided : (if trial.candidate < 2 then some false
        else undivided? trial.candidate trial.divisor) = some false := by
      split
      · rfl
      · obtain ⟨small, divides⟩ := composite.resolve_left ‹_›
        rw [undivided?, word?_of_lt square, Option.bind_some, dif_pos small, if_pos divides]
    rw [← primeFrom?_eq_found?, found?, decided, Option.bind_some, if_neg Bool.false_ne_true]
    exact (if_pos candidate).symm
  · have goesOn : undivided? trial.candidate trial.divisor =
        undivided? trial.candidate (trial.divisor + 1) := by
      rw [undivided?, word?_of_lt square, Option.bind_some, dif_pos small, if_neg leaves,
        word?_of_lt divisor, Option.bind_some]
    rw [found?, found?, goesOn]

/-- Where no divisor is left, the number is found. -/
theorem Fits.found?_last (fits : trial.Fits) (ends : trial.next? = none) :
    trial.found? = some trial.candidate := by
  obtain ⟨large, beyond⟩ := next?_eq_none ends
  rw [found?, if_neg large, undivided?, word?_of_lt fits.square, Option.bind_some, dif_neg beyond,
    Option.bind_some, if_pos rfl]

/-- A bound on the number of turns up to a prime. -/
def left (prime : Nat) (trial : Trial) : Nat :=
  (prime - trial.candidate) * 2 ^ 32 + (2 ^ 32 - trial.divisor)

theorem left_next_lt (within : Within prime trial) (withinNext : Within prime later)
    (turn : trial.next? = some later) : left prime later < left prime trial := by
  obtain ⟨_, _, small⟩ := within
  obtain ⟨notPassed, _, _⟩ := withinNext
  unfold left
  rcases next?_eq_some turn with ⟨rfl, _⟩ | ⟨rfl, _⟩
  · dsimp only [start] at notPassed ⊢
    omega
  · dsimp only
    omega

/-- The induction follows the turns, of which there are only so many. -/
theorem Within.exists_last (within : Within prime trial) (isPrime : prime.Prime)
    (reached : prime < greatestSquare) : ∃ last, trial.Reaches last ∧ last.next? = none := by
  induction turns : left prime trial using Nat.strong_induction_on generalizing trial with
  | h turns ih =>
    cases turn : trial.next? with
    | none => exact ⟨trial, .refl, turn⟩
    | some later =>
      have withinNext := within.next isPrime reached turn
      have fewer := left_next_lt within withinNext turn
      obtain ⟨last, more, ends⟩ := ih _ (by omega) withinNext rfl
      exact ⟨last, .head turn more, ends⟩

/-- All of the search stays within its bounds and finds the same number. -/
theorem Within.of_reaches (within : Within prime trial) (isPrime : prime.Prime)
    (reached : prime < greatestSquare) (reaches : trial.Reaches later) :
    Within prime later ∧ later.found? = trial.found? := by
  induction reaches with
  | refl => exact ⟨within, rfl⟩
  | tail _ turn ih =>
    obtain ⟨withinHere, same⟩ := ih
    refine ⟨withinHere.next isPrime reached turn, ?_⟩
    exact ((withinHere.fits reached).found?_next turn).trans same

end Trial

open Trial

variable {after : Nat}

/-- From no number up to `2 ^ 62` does the search for the next prime leave 64 bits. It comes to an
end, and what it finds is the least prime above the number. -/
theorem nextPrime?_exact (small : after ≤ 2 ^ 62) :
    ∃ prime last, nextPrime? after = some prime ∧ IsLeast {p | p.Prime ∧ after < p} prime ∧
      (start (after + 1)).Reaches last ∧ last.next? = none ∧ last.candidate = prime ∧
      ∀ trial, (start (after + 1)).Reaches trial →
        trial.Fits ∧ trial.candidate ≤ prime ∧ trial.found? = some prime := by
  obtain ⟨bound, bounds, inRange, above⟩ := exists_prime_lt_greatestSquare small
  obtain ⟨prime, found⟩ := Option.isSome_iff_exists.mp (nextPrime?_isSome small)
  obtain ⟨isPrime, fits, further, least⟩ := nextPrime?_eq_some found
  have within : Within prime (start (after + 1)) := within_start further
  have atMost : prime ≤ bound := Nat.le_of_not_lt fun below => least bound above below bounds
  have reached : prime < greatestSquare := Nat.lt_of_le_of_lt atMost inRange
  have run : (start (after + 1)).found? = some prime := by
    rw [← primeFrom?_eq_found?, ← found, nextPrime?, word?_of_lt (by omega), Option.bind_some]
  have stays (trial : Trial) (reaches : (start (after + 1)).Reaches trial) :
      trial.Fits ∧ trial.candidate ≤ prime ∧ trial.found? = some prime := by
    obtain ⟨withinHere, same⟩ := within.of_reaches isPrime reached reaches
    exact ⟨withinHere.fits reached, withinHere.candidate, same.trans run⟩
  obtain ⟨last, reaches, ends⟩ := within.exists_last isPrime reached
  obtain ⟨fitsLast, _, foundLast⟩ := stays last reaches
  have same := (fitsLast.found?_last ends).symm.trans foundLast
  refine ⟨prime, last, found, ⟨⟨isPrime, further⟩, ?_⟩, reaches, ends, Option.some_inj.mp same,
    stays⟩
  rintro other ⟨otherPrime, beyond⟩
  exact Nat.le_of_not_lt fun below => least other beyond below otherPrime

/-- Behind 7 the search passes 8, 9 and 10, the second of them at the divisor 3. -/
theorem exists_trial_of_nine :
    (7 : Nat) ≤ 2 ^ 62 ∧ (start 8).Reaches ⟨9, 3⟩ ∧ nextPrime? 7 = some 11 ∧
      IsLeast {p | p.Prime ∧ 7 < p} 11 ∧ (Trial.mk 9 3).Fits ∧
      (Trial.mk 9 3).found? = some 11 := by
  have small : (7 : Nat) ≤ 2 ^ 62 := by decide
  have reaches : (start 8).Reaches ⟨9, 3⟩ := .tail (.tail .refl (rfl : _ = some (start 9))) rfl
  obtain ⟨prime, _, found, least, _, _, _, stays⟩ := nextPrime?_exact small
  have first : nextPrime? 7 = some 11 := by decide +kernel
  obtain rfl : prime = 11 := Option.some_inj.mp (found.symm.trans first)
  obtain ⟨fits, _, same⟩ := stays _ reaches
  exact ⟨small, reaches, found, least, fits, same⟩

end Dimensional.Prime
