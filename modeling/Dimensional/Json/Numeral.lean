import Dimensional.Json
import Dimensional.Number.Literal

/-! The numbers that numerals denote. Doubles are computed from the leading digits that fit into 64
bits and a power of ten, which for long numerals may miss the nearest double. -/
namespace Dimensional.Json.Numeral

/-- Leading digits as a number below `2 ^ 64`, and the power of ten it is to be multiplied by. -/
structure Scaled where
  significand : Nat
  exponent : Int
deriving DecidableEq, Repr

/-- Append a digit, if the result fits into 64 bits. -/
def push? (significand : Nat) (c : Char) : Option Nat :=
  let pushed := 10 * significand + (c.toNat - '0'.toNat)
  if pushed < 1 <<< 64 then some pushed else none

/-- The digits before the point. From the first one that does not fit, each counts as a place. -/
def ofWhole (significand : Nat) : List Char → Scaled
  | [] => ⟨significand, 0⟩
  | c :: cs =>
    match push? significand c with
    | some pushed => ofWhole pushed cs
    | none => ⟨significand, (c :: cs).length⟩

/-- The digits after the point. From the first one that does not fit, they are dropped. -/
def withFraction (scaled : Scaled) : List Char → Scaled
  | [] => scaled
  | c :: cs =>
    match push? scaled.significand c with
    | some pushed => withFraction ⟨pushed, scaled.exponent - 1⟩ cs
    | none => scaled

/-- The largest power of ten that a double holds. -/
def maxPlaces : Nat := 308

def powerOfTen (places : Nat) : Float := Float.ofScientific 1 false places

/-- Divide by a power of ten, in portions that doubles hold. -/
def divide (x : Float) (places : Nat) : Float :=
  if places ≤ maxPlaces then x / powerOfTen places
  else if x == 0.0 then x
  else divide (x / powerOfTen maxPlaces) (places - maxPlaces)
termination_by places
decreasing_by simp only [maxPlaces] at *; omega

/-- The double of a scaled number; nothing where it is out of range. -/
def Scaled.toFloat? (scaled : Scaled) : Option Float :=
  let significand := Float.ofNat scaled.significand
  if scaled.exponent < 0 then some (divide significand scaled.exponent.natAbs)
  else if scaled.exponent.toNat ≤ maxPlaces then
    let product := significand * powerOfTen scaled.exponent.toNat
    if Number.isInfinite product then none else some product
  else if significand == 0.0 then some significand
  else none

/-- Exponents are held in 32 bits. -/
def maxExponent : Nat := (1 <<< 31) - 1

/-- Multiply by the power of ten that is written out. One that does not fit into 32 bits makes zero
if it is negative, and fails unless the number is zero already if it is not. -/
def withExponent? (scaled : Scaled) (negative : Bool) (run : List Char) : Option Scaled :=
  let places := Number.ofDigits run
  if places ≤ maxExponent then
    let exponent := if negative then scaled.exponent - places else scaled.exponent + places
    some ⟨scaled.significand, max (-maxExponent - 1) (min maxExponent exponent)⟩
  else if negative || scaled.significand == 0 then some ⟨0, 0⟩
  else none

/-- The double that a numeral denotes; nothing where it is out of range. -/
def toFloat? (numeral : Numeral) : Option Float := do
  let whole := ofWhole 0 numeral.whole
  let scaled := withFraction whole (numeral.fraction?.getD [])
  let scaled ← match numeral.exponent? with
    | some (negative, run) => withExponent? scaled negative run
    | none => some scaled
  let magnitude ← scaled.toFloat?
  return if numeral.negative then -magnitude else magnitude

/-- The natural number that a numeral of digits alone denotes, if it stays below a bound. -/
def toNat? (bound : Nat) (numeral : Numeral) : Option Nat :=
  if numeral.negative || numeral.fraction?.isSome || numeral.exponent?.isSome then none
  else
    let n := Number.ofDigits numeral.whole
    if n < bound then some n else none

end Dimensional.Json.Numeral
