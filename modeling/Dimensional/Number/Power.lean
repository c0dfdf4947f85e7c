import Dimensional.Number.Exact

/-! Raising a double to a double. -/
namespace Dimensional.Number

/-- An exponent that is an odd integer keeps the sign of a zero base. -/
def isOdd (x : Float) : Bool :=
  match toInt? x with
  | some n => n % 2 != 0
  | none => false

/-- A zero raised to an exponent other than zero. -/
def powerOfZero (zero exponent : Float) : Float :=
  let signed := if isOdd exponent then zero else 0.0
  if exponent < 0.0 then 1.0 / signed
  else if 0.0 < exponent then signed
  else exponent

/-- Everything to the power zero is 1, and a zero base follows `powerOfZero`. -/
def power (base exponent : Float) : Float :=
  if exponent == 0.0 then 1.0
  else if base == 0.0 then powerOfZero base exponent
  else base.pow exponent

theorem power_zero {base exponent : Float} (h : (exponent == 0.0) = true) :
    power base exponent = 1.0 := by
  simp [power, h]

end Dimensional.Number
