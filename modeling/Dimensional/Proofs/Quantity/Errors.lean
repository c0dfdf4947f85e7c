import Dimensional.Proofs.Except
import Dimensional.Parser.Meaning

/-! What can be wrong with each operation. -/

namespace Dimensional

namespace AlgebraError

/-- The errors of a sum. -/
def OfSum : AlgebraError → Prop
  | .dimensionMismatch _ _ => True
  | _ => False

/-- The errors of a product with an operator. -/
def OfProduct (op : MulOp) : AlgebraError → Prop
  | .vectorProduct named => named = op
  | .overflow => True
  | _ => False

/-- The errors of a power. -/
def OfPower : AlgebraError → Prop
  | .zeroToTheZero | .nonIntegerExponent _ | .overflow => True
  | _ => False

/-- The errors of a vector product with an operator. -/
def OfVectorProduct (op : VectorOp) : AlgebraError → Prop
  | .nonVectorOperand named => named = op
  | .unknownDimension _ | .overflow => True
  | _ => False

end AlgebraError

theorem Monomial.append_failsOnly {monomial : Monomial} {dimensions : List Dimension}
    {p : AlgebraError → Prop} (overflow : p .overflow) :
    (monomial.append dimensions).FailsOnly p := by
  unfold append
  split
  · exact .ok
  · exact .error AlgebraError.overflow overflow

namespace Quantity

variable {left right base : Quantity}

theorem add_failsOnly {op : AddOp} : (left.add op right).FailsOnly AlgebraError.OfSum := by
  refine .map ?_
  unfold ensureSameDimensions
  split
  · exact .ok
  · exact .error (AlgebraError.dimensionMismatch _ _) trivial

theorem raisedDimensions_failsOnly {times : Int} :
    (base.raisedDimensions times).FailsOnly (· = .overflow) := by
  have repeated (monomial : Monomial) (times : Nat) :
      (repeated monomial times).FailsOnly (· = .overflow) := Monomial.append_failsOnly rfl
  unfold raisedDimensions
  by_cases large : maxExponent < times.natAbs
  · rw [if_pos large]
    exact .error AlgebraError.overflow rfl
  · rw [if_neg large]
    exact (repeated _ _).bind fun _ => (repeated _ _).bind fun _ => .ok

theorem power_failsOnly {exponent : Float} :
    (base.power exponent).FailsOnly AlgebraError.OfPower := by
  unfold power
  split
  · split
    · exact .error AlgebraError.zeroToTheZero trivial
    · exact .ok
  · dsimp only
    split
    · split
      · refine .map fun error failed => ?_
        obtain rfl := raisedDimensions_failsOnly error failed
        trivial
      · split
        · exact .error AlgebraError.overflow trivial
        · exact .error (AlgebraError.nonIntegerExponent exponent) trivial
    · exact .ok

theorem vectorProduct_failsOnly {op : VectorOp} {angle? : Option Dimension} :
    (vectorProduct op left right angle?).FailsOnly (AlgebraError.OfVectorProduct op) := by
  have appended (monomial : Monomial) (dimensions : List Dimension) :
      (monomial.append dimensions).FailsOnly (AlgebraError.OfVectorProduct op) :=
    Monomial.append_failsOnly trivial
  unfold vectorProduct
  by_cases vectors : (left.isVector && right.isVector) = true
  · rw [if_pos vectors]
    refine (appended _ _).bind fun _ => (appended _ _).bind fun _ => ?_
    refine (appended _ _).bind fun _ => (appended _ _).bind fun _ => ?_
    cases op with
    | dot => exact .ok
    | cross =>
      cases angle? with
      | none => exact .error (AlgebraError.unknownDimension angleKey) trivial
      | some angle => exact (appended _ _).bind fun _ => .ok
  · rw [if_neg vectors]
    exact .error (AlgebraError.nonVectorOperand op) rfl

end Quantity

namespace Term

variable {term : Term} {op named : MulOp} {factor first : Quantity}

theorem place_failsOnly {quantity : Quantity} {dimensions : List Dimension} :
    (place quantity op dimensions).FailsOnly (· = .overflow) := by
  cases op <;> exact .map (Monomial.append_failsOnly rfl)

theorem absorbDimensions_failsOnly :
    (term.absorbDimensions op factor).1.FailsOnly (· = .overflow) := by
  unfold absorbDimensions
  cases above : place term.quantity op factor.numerator.factors with
  | error error => exact .error _ (place_failsOnly _ above)
  | ok quantity =>
    dsimp only
    cases both : place quantity op.inverse factor.denominator.factors with
    | error error => exact .error _ (place_failsOnly _ both)
    | ok quantity => exact .ok

/-- A term admits one vector. -/
theorem absorb_failsOnly_of_vectors (none : term.vectors = 0) :
    (term.absorb op factor).1.FailsOnly (· = .overflow) := by
  unfold absorb
  split
  · rw [if_neg (by omega)]
    exact absorbDimensions_failsOnly
  · exact absorbDimensions_failsOnly

theorem absorb_failsOnly : (term.absorb op factor).1.FailsOnly (AlgebraError.OfProduct op) := by
  have dimensions (term : Term) :
      (term.absorbDimensions op factor).1.FailsOnly (AlgebraError.OfProduct op) := by
    intro error failed
    obtain rfl := absorbDimensions_failsOnly _ failed
    trivial
  unfold absorb
  split
  · dsimp only
    split
    · exact .error (AlgebraError.vectorProduct op) rfl
    · exact dimensions _
  · exact dimensions _

theorem apply_failsOnly : (term.apply op factor).1.FailsOnly (AlgebraError.OfProduct op) := by
  unfold apply
  split
  · exact absorb_failsOnly
  · exact absorb_failsOnly

theorem ofFactor_failsOnly {negated : Bool} :
    (ofFactor negated first).FailsOnly (· = .overflow) := by
  unfold ofFactor
  dsimp only
  split
  · exact .ok
  · rename_i error _ failed
    refine .error _ (absorb_failsOnly_of_vectors ?_ _ (congrArg Prod.fst failed))
    split <;> rfl

end Term

theorem Worth.add_failsOnly {sum term : Worth} {op : AddOp} :
    (sum.add op term).FailsOnly AlgebraError.OfSum := by
  unfold add
  split
  · exact .ok
  · exact .map Quantity.add_failsOnly

theorem Worth.power_failsOnly {base : Worth} {exponent : Float} :
    (base.power exponent).FailsOnly AlgebraError.OfPower := by
  unfold power
  split
  · split
    · exact .error AlgebraError.zeroToTheZero trivial
    · exact .ok
  · exact .map Quantity.power_failsOnly

theorem Chain.ofFactor_failsOnly {grammar : Grammar} {negated : Bool} {factor : Worth} :
    (ofFactor grammar negated factor).FailsOnly (· = .overflow) := by
  cases grammar with
  | numeric => exact .ok
  | quantity => exact .map Term.ofFactor_failsOnly

theorem Chain.apply_failsOnly {chain : Chain} {op : MulOp} {factor : Worth} :
    (chain.apply op factor).FailsOnly (AlgebraError.OfProduct op) := by
  cases chain with
  | number value => exact .ok
  | quantity term =>
    unfold apply
    dsimp only
    split
    · exact .ok
    · rename_i failed
      exact .error _ (Term.apply_failsOnly _ (congrArg Prod.fst failed))

end Dimensional
