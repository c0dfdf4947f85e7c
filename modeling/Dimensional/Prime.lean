/-! The primes that tell dimensions apart, found by trial division on 64-bit numbers. -/
namespace Dimensional.Prime

/-- A number, if it fits into 64 bits. -/
def word? (n : Nat) : Option Nat :=
  if n < 1 <<< 64 then some n else none

/-- Whether no number from `divisor` up to the square root of `n` divides `n`; nothing when a
square or a divisor on the way does not fit into 64 bits. -/
def undivided? (n divisor : Nat) : Option Bool :=
  (word? (divisor * divisor)).bind fun _ =>
    if _ : divisor * divisor ≤ n then
      if n % divisor = 0 then some false
      else (word? (divisor + 1)).bind fun _ => undivided? n (divisor + 1)
    else some true
termination_by n + 1 - divisor
decreasing_by
  have := Nat.le_mul_self divisor
  omega

/-- Whether a number is prime. -/
def isPrime? (n : Nat) : Option Bool :=
  if n < 2 then some false else undivided? n 2

/-- The first prime from `candidate` on. -/
def primeFrom? (candidate : Nat) : Option Nat :=
  (isPrime? candidate).bind fun prime =>
    if prime then some candidate
    else if _ : candidate + 1 < 1 <<< 64 then primeFrom? (candidate + 1)
    else none
termination_by (1 <<< 64) - candidate

/-- The least prime above a number; nothing when it cannot be found within 64 bits. -/
def nextPrime? (after : Nat) : Option Nat :=
  (word? (after + 1)).bind primeFrom?

end Dimensional.Prime
