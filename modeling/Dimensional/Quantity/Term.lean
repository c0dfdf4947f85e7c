import Dimensional.Quantity

/-! Chains of multiplications and divisions, followed factor by factor. -/
namespace Dimensional

/-- The state of a chain. Its coefficient is the product of the factors with a known value; the
others contribute their dimensions alone. -/
structure Term where
  quantity : Quantity
  coefficient : Float
  hasNumber : Bool
  allConstant : Bool
  vectors : Nat
deriving DecidableEq, Repr

namespace Term

/-- The chain before its first factor, with the sign of the whole. -/
def start (negated : Bool) : Term :=
  { quantity := .unknown, coefficient := if negated then -1.0 else 1.0
    hasNumber := false, allConstant := true, vectors := 0 }

/-- The value of a chain without any known factor is zero. -/
def value (term : Term) : Float :=
  if term.hasNumber then term.coefficient else 0.0

/-- The quantity that the chain stands for. -/
def finish (term : Term) : Quantity :=
  { term.quantity with
    isConstant := term.allConstant, hasValue := term.hasNumber, value := term.value }

/-- Dimensions that are multiplied go above the line, those that are divided go below it. -/
def place (quantity : Quantity) : MulOp → List Dimension → Except AlgebraError Quantity
  | .times => quantity.multiplyNumerator
  | .over => quantity.multiplyDenominator

/-- Take in a factor's dimensions, numerator first. -/
def absorbDimensions (term : Term) (op : MulOp) (factor : Quantity) : Except AlgebraError Unit × Term :=
  match place term.quantity op factor.numerator.factors with
  | .error error => (.error error, term)
  | .ok above =>
    match place above op.inverse factor.denominator.factors with
    | .error error => (.error error, { term with quantity := above })
    | .ok both =>
      (.ok (), { term with
        quantity := both, allConstant := term.allConstant && factor.isConstant })

/-- Take in everything but a factor's value. One vector is the most that a chain may hold. -/
def absorb (term : Term) (op : MulOp) (factor : Quantity) : Except AlgebraError Unit × Term :=
  if factor.isVector then
    let counted := { term with vectors := term.vectors + 1 }
    if 0 < term.vectors then (.error (.vectorProduct op), counted)
    else
      let marked := { counted with quantity := { counted.quantity with isVector := true } }
      marked.absorbDimensions op factor
  else term.absorbDimensions op factor

/-- Multiply by a factor or divide by it. What was done before a failure stays done. -/
def apply (term : Term) (op : MulOp) (factor : Quantity) : Except AlgebraError Unit × Term :=
  if factor.hasValue then
    let scaled :=
      { term with coefficient := op.apply term.coefficient factor.value, hasNumber := true }
    scaled.absorb op factor
  else term.absorb op factor

/-- A chain of one factor. Unlike later factors, one that is zero counts. -/
def ofFactor (negated : Bool) (first : Quantity) : Except AlgebraError Term :=
  let begun := start negated
  let scaled :=
    if first.hasValue then
      { begun with coefficient := begun.coefficient * first.value, hasNumber := true }
    else begun
  match scaled.absorb .times first with
  | (.ok (), term) => .ok term
  | (.error error, _) => .error error

end Term

end Dimensional
