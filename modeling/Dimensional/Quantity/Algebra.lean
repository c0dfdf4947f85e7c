import Dimensional.Number.Power
import Dimensional.Quantity

/-! Sums, powers and vector products of quantities. -/
namespace Dimensional.Quantity

/-- Check that two quantities may be added. -/
def ensureSameDimensions (left right : Quantity) : Except AlgebraError Unit :=
  if left.sameDimensions right then .ok ()
  else .error (.dimensionMismatch left.dimensionText right.dimensionText)

/-- A sum or difference of quantities of the same dimensions. -/
def add (left : Quantity) (op : AddOp) (right : Quantity) : Except AlgebraError Quantity :=
  (left.ensureSameDimensions right).map fun _ =>
    { left with
      identifier? := none
      isVector := left.isVector || right.isVector
      isConstant := left.isConstant && right.isConstant
      hasValue := left.hasValue || right.hasValue
      value := op.apply left.value right.value }

/-- The largest power of a prime that can stay within the bound of a product. -/
def maxExponent : Nat := 127

/-- A power of a product of dimensions. -/
def repeated (monomial : Monomial) (times : Nat) : Except AlgebraError Monomial :=
  Monomial.one.append (List.replicate times monomial.factors).flatten

/-- The dimensions of a quantity raised to an integer; below zero they change sides. -/
def raisedDimensions (base : Quantity) (exponent : Int) :
    Except AlgebraError (Monomial × Monomial) := do
  if maxExponent < exponent.natAbs then throw .overflow
  let numerator ← repeated base.numerator exponent.natAbs
  let denominator ← repeated base.denominator exponent.natAbs
  return if exponent < 0 then (denominator, numerator) else (numerator, denominator)

/-- A quantity raised to a number. Anything to the power zero is the constant 1, except a constant
zero; a value that is zero stays as it is. -/
def power (base : Quantity) (exponent : Float) : Except AlgebraError Quantity :=
  if exponent == 0.0 then
    if base.isConstant && base.value == 0.0 then .error .zeroToTheZero
    else .ok { base.bare with isVector := false, isConstant := true, hasValue := true, value := 1.0 }
  else
    let value := if base.value == 0.0 then base.value else Number.power base.value exponent
    if base.isDimensioned then
      match Number.toInt? exponent with
      | some whole => (base.raisedDimensions whole).map fun (numerator, denominator) =>
        { base with numerator, denominator, value }
      | none =>
        if Number.isInfinite exponent then .error .overflow
        else .error (.nonIntegerExponent exponent)
    else .ok { base.bare with value }

/-- The key of the dimension that a cross product divides by. -/
def angleKey : String := "rad"

/-- The product of two vectors has the dimensions of both. A cross product divides by the angle
and is a vector again. -/
def vectorProduct (op : VectorOp) (left right : Quantity) (angle? : Option Dimension) :
    Except AlgebraError Quantity := do
  unless left.isVector && right.isVector do throw (.nonVectorOperand op)
  let numerator ← Monomial.one.append left.numerator.factors
  let denominator ← Monomial.one.append left.denominator.factors
  let numerator ← numerator.append right.numerator.factors
  let denominator ← denominator.append right.denominator.factors
  match op with
  | .dot => return { unknown with numerator, denominator }
  | .cross =>
    match angle? with
    | none => throw (.unknownDimension angleKey)
    | some angle =>
      return { unknown with
        numerator, denominator := ← denominator.append [angle], isVector := true }

end Dimensional.Quantity
