import Dimensional.Number.Decimal
import Dimensional.Operator

/-! What can be wrong with an operation on dimensions or quantities. -/
namespace Dimensional

inductive AlgebraError where
  /-- A sum of quantities whose dimensions, given as text, differ. -/
  | dimensionMismatch (left right : String)
  /-- A term with two vectors. -/
  | vectorProduct (op : MulOp)
  /-- A vector product of something that is no vector. -/
  | nonVectorOperand (op : VectorOp)
  /-- A power of a dimension that is no integer. -/
  | nonIntegerExponent (exponent : Float)
  | zeroToTheZero
  | unknownDimension (key : String)
  | duplicateDimension (key : String)
  /-- A number that identifies dimensions grew out of its range. -/
  | overflow
deriving DecidableEq, Repr

def AlgebraError.message : AlgebraError → String
  | .dimensionMismatch left right => "dimension mismatch: '" ++ left ++ "' vs '" ++ right ++ "'"
  | .vectorProduct op => "two vectors cannot be " ++ op.participle
  | .nonVectorOperand op => "operands of '" ++ op.keyword ++ "' must both be vectors"
  | .nonIntegerExponent exponent =>
    "exponent " ++ Number.text exponent ++ " applied to a dimensioned base must be an integer"
  | .zeroToTheZero => "zero raised to the zero power is indeterminate"
  | .unknownDimension key => "unknown dimension '" ++ key ++ "'"
  | .duplicateDimension key => "dimension '" ++ key ++ "' is already defined"
  | .overflow => "dimension prime product overflow"

end Dimensional
