import Dimensional.Proofs.Number.Exact
import Dimensional.Quantity
import Mathlib.Algebra.BigOperators.Group.Multiset.Basic

/-! Dimensions without primes: how often each one is above and below the line. Known values are
followed on their own, by the arithmetic that the operators are written for. -/

namespace Dimensional

/-- The arithmetic of a sign between terms. -/
def AddOp.operation : AddOp → Float → Float → Float
  | .plus => (· + ·)
  | .minus => (· - ·)

/-- The arithmetic of a sign between factors. -/
def MulOp.operation : MulOp → Float → Float → Float
  | .times => (· * ·)
  | .over => (· / ·)

/-- An operation that leaves its left operand as it is where the right one is zero. -/
def skippingZero (operation : Float → Float → Float) (left right : Float) : Float :=
  if right == 0.0 then left else operation left right

theorem AddOp.apply_eq_operation (op : AddOp) : op.apply = op.operation := by
  cases op <;> rfl

theorem MulOp.apply_eq_skippingZero (op : MulOp) : op.apply = skippingZero op.operation := by
  cases op <;> rfl

/-- The dimensions of a quantity, in no order, and whether it is a vector. -/
structure Measure where
  above : Multiset Dimension
  below : Multiset Dimension
  isVector : Bool
deriving DecidableEq

namespace Measure

def one : Measure := ⟨0, 0, false⟩

def ofDimension (dimension : Dimension) : Measure := ⟨{dimension}, 0, false⟩

/-- Products of primes have to stay within their bound. -/
def Fits (measure : Measure) : Prop :=
  (measure.above.map Dimension.prime).prod < Monomial.bound ∧
    (measure.below.map Dimension.prime).prod < Monomial.bound

instance (measure : Measure) : Decidable measure.Fits :=
  inferInstanceAs (Decidable (_ ∧ _))

/-- A measure that fits. -/
def checked (measure : Measure) : Option Measure :=
  if measure.Fits then some measure else none

/-- Only equal dimensions are added. A sum is a vector if one side is. -/
def add (left right : Measure) : Option Measure :=
  if left.above = right.above ∧ left.below = right.below then
    some { left with isVector := left.isVector || right.isVector }
  else none

/-- Division exchanges what is above and below the line. -/
def swap (measure : Measure) : Measure :=
  { measure with above := measure.below, below := measure.above }

/-- Both dimensions together. -/
def union (left right : Measure) : Measure :=
  ⟨left.above + right.above, left.below + right.below, left.isVector || right.isVector⟩

/-- One vector is the most that a product may hold. -/
def multiply (left : Measure) (op : MulOp) (right : Measure) : Option Measure :=
  if left.isVector && right.isVector then none
  else match op with
    | .times => (left.union right).checked
    | .over => (left.union right.swap).checked

/-- The dimensions some times over, which change sides below zero. -/
def repeated (measure : Measure) (times : Int) : Measure :=
  let copies : Measure :=
    { measure with above := times.natAbs • measure.above, below := times.natAbs • measure.below }
  if times < 0 then copies.swap else copies

/-- Dimensions are raised to integers only. -/
def power (base : Measure) (exponent : Float) : Option Measure :=
  if exponent == 0.0 then some one
  else if base.above = 0 ∧ base.below = 0 then some base
  else (Number.whole? exponent).bind fun times => (base.repeated times).checked

/-- Two vectors give a number, or a vector that is divided by the angle. -/
def vectorProduct (op : VectorOp) (left right : Measure) (angle? : Option Dimension) :
    Option Measure :=
  if left.isVector && right.isVector then
    match op with
    | .dot => ({ left.union right with isVector := false } : Measure).checked
    | .cross => angle?.bind fun angle => ((left.union right).union (ofDimension angle).swap).checked
  else none

theorem checked_swap {measure : Measure} :
    measure.swap.checked = measure.checked.map Measure.swap := by
  have exchanged : measure.swap.Fits ↔ measure.Fits := And.comm
  unfold checked
  by_cases fits : measure.Fits
  · rw [if_pos fits, if_pos (exchanged.mpr fits)]
    rfl
  · rw [if_neg fits, if_neg fun swapped => fits (exchanged.mp swapped)]
    rfl

end Measure

/-- What is known of a value. -/
structure Scalar where
  isConstant : Bool
  hasValue : Bool
  value : Float
deriving DecidableEq, Repr

namespace Scalar

def unknown : Scalar := ⟨false, false, 0.0⟩

def constant (value : Float) : Scalar := ⟨true, true, value⟩

def isZero (scalar : Scalar) : Bool := scalar.isConstant && scalar.value == 0.0

def add (left : Scalar) (op : AddOp) (right : Scalar) : Scalar :=
  ⟨left.isConstant && right.isConstant, left.hasValue || right.hasValue,
    op.operation left.value right.value⟩

/-- The first factor of a term, with the sign of the term. -/
def signed (negated : Bool) (first : Scalar) : Scalar :=
  let sign := if negated then -1.0 else 1.0
  ⟨first.isConstant, first.hasValue, if first.hasValue then sign * first.value else sign⟩

/-- Factors that are unknown leave the value as it is, and so do zeros. -/
def multiply (left : Scalar) (op : MulOp) (right : Scalar) : Scalar :=
  ⟨left.isConstant && right.isConstant, left.hasValue || right.hasValue,
    if right.hasValue then skippingZero op.operation left.value right.value else left.value⟩

/-- A term without any known factor is zero. -/
def finish (scalar : Scalar) : Scalar :=
  { scalar with value := if scalar.hasValue then scalar.value else 0.0 }

def power (base : Scalar) (exponent : Float) : Scalar :=
  if exponent == 0.0 then constant 1.0
  else { base with
    value := if base.value == 0.0 then base.value else Number.power base.value exponent }

end Scalar

namespace Quantity

/-- The dimensions of a quantity without their order. -/
def measure (quantity : Quantity) : Measure :=
  ⟨quantity.numerator.factors, quantity.denominator.factors, quantity.isVector⟩

def scalar (quantity : Quantity) : Scalar :=
  ⟨quantity.isConstant, quantity.hasValue, quantity.value⟩

end Quantity

end Dimensional
