/-! The exact value of a double: a sign, a significand and a power of two. -/
namespace Dimensional.Number

/-- What the bits of a double stand for. -/
inductive Exact where
  | nan
  | infinite (negative : Bool)
  | finite (negative : Bool) (significand : Nat) (power : Int)
deriving DecidableEq, Repr

/-- Subnormal doubles share the power of the smallest normal ones and lack their leading bit. -/
def exact (x : Float) : Exact :=
  let bits : Nat := x.toBits.toNat
  let negative := decide (1 <<< 63 ≤ bits)
  let biased : Nat := (bits >>> 52) % (1 <<< 11)
  let fraction : Nat := bits % (1 <<< 52)
  if biased = 2047 then
    if fraction = 0 then .infinite negative else .nan
  else if biased = 0 then .finite negative fraction (-1074)
  else .finite negative ((1 <<< 52) + fraction) ((biased : Int) - 1075)

/-- The integer that a finite value is, if it is one. -/
def Exact.toInt? : Exact → Option Int
  | .finite negative significand power =>
    let magnitude := significand <<< power.toNat
    let divisor := 1 <<< (-power).toNat
    if magnitude % divisor = 0 then
      some (if negative then -(magnitude / divisor : Nat) else (magnitude / divisor : Nat))
    else none
  | _ => none

/-- The integer that a double denotes; both zeros denote 0. -/
def toInt? (x : Float) : Option Int :=
  (exact x).toInt?

/-- Whether a double is one of the two infinities. -/
def isInfinite (x : Float) : Bool :=
  match exact x with
  | .infinite _ => true
  | _ => false

end Dimensional.Number
