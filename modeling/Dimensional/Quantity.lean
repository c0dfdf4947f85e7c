import Dimensional.Monomial

/-! Physical quantities: dimensions above and below the line, and what is known of the value. -/
namespace Dimensional

structure Quantity where
  identifier? : Option String
  numerator : Monomial
  denominator : Monomial
  isVector : Bool
  /-- Whether it is a literal, a named constant or made of such alone. -/
  isConstant : Bool
  /-- Whether some part of it that has a known value entered `value`. -/
  hasValue : Bool
  value : Float
deriving DecidableEq, Repr

namespace Quantity

/-- A quantity without dimensions whose value is unknown. -/
def unknown : Quantity :=
  { identifier? := none, numerator := .one, denominator := .one
    isVector := false, isConstant := false, hasValue := false, value := 0.0 }

/-- A number without dimensions. -/
def constant (value : Float) : Quantity :=
  { unknown with isConstant := true, hasValue := true, value := value }

/-- A quantity of one base dimension, named after it. -/
def ofDimension (dimension : Dimension) : Quantity :=
  { unknown with
    identifier? := some dimension.name, numerator := ⟨[dimension], dimension.prime⟩ }

def named (quantity : Quantity) (identifier : String) : Quantity :=
  { quantity with identifier? := some identifier }

/-- The quantity without its dimensions. -/
def bare (quantity : Quantity) : Quantity :=
  { quantity with numerator := .one, denominator := .one }

def multiplyNumerator (quantity : Quantity) (dimensions : List Dimension) :
    Except AlgebraError Quantity :=
  (quantity.numerator.append dimensions).map fun numerator => { quantity with numerator }

def multiplyDenominator (quantity : Quantity) (dimensions : List Dimension) :
    Except AlgebraError Quantity :=
  (quantity.denominator.append dimensions).map fun denominator => { quantity with denominator }

/-- Two quantities have the same dimensions when their products of primes agree. -/
def sameDimensions (left right : Quantity) : Bool :=
  left.numerator.product == right.numerator.product &&
    left.denominator.product == right.denominator.product

def isDimensionless (quantity : Quantity) : Bool :=
  quantity.numerator.product == 1 && quantity.denominator.product == 1

/-- Whether any dimension is listed at all. -/
def isDimensioned (quantity : Quantity) : Bool :=
  !quantity.numerator.factors.isEmpty || !quantity.denominator.factors.isEmpty

/-- The dimensions as text, such as `kg*m / s*s`; an empty numerator reads `1`. -/
def dimensionText (quantity : Quantity) : String :=
  let above := if quantity.numerator.factors.isEmpty then "1" else quantity.numerator.text
  if quantity.denominator.factors.isEmpty then above
  else above ++ " / " ++ quantity.denominator.text

end Quantity

end Dimensional
