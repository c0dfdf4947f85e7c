import Dimensional.Number.Literal
import Dimensional.Proofs.Derivation
import Dimensional.Proofs.Measure
import Dimensional.Quantity.Algebra

/-! Reading derivations without primes: what numeric parts come to, which dimensions the others have
and which values are known. -/

namespace Dimensional

/-- The numbers that the operands before a rest come to together. -/
abbrev Category.CarriedNumber : Category → Type
  | .sumRest _ | .productRest _ _ => Float
  | _ => Unit

abbrev Category.CarriedMeasure : Category → Type
  | .sumRest _ | .productRest _ _ => Measure
  | _ => Unit

abbrev Category.CarriedScalar : Category → Type
  | .sumRest _ | .productRest _ _ => Scalar
  | _ => Unit

namespace Derivation

variable (vocabulary : Vocabulary)

/-- The number that a numeric part comes to. Its names are constants without dimensions, zero is not
raised to zero, and a factor that is zero is passed over. -/
def fold? : Derivation category → category.CarriedNumber → Option Float
  | expression first rest, _ => do rest.fold? (← first.fold? ())
  | lastTerm, total => some total
  | sum op _ next rest, total => do rest.fold? (op.operation total (← next.fold? ()))
  | term first rest, _ => do rest.fold? (1.0 * (← first.fold? ()))
  | negated _ first rest, _ => do rest.fold? (-1.0 * (← first.fold? ()))
  | lastFactor, total => some total
  | product op _ next rest, total => do
    rest.fold? (skippingZero op.operation total (← next.fold? ()))
  | silent _ _, _ => none
  | factor base, _ => base.fold? ()
  | raised base _ exponent, _ => do
    let base ← base.fold? ()
    let exponent ← exponent.fold? ()
    if base == 0.0 && exponent == 0.0 then none else some (Number.power base exponent)
  | name token, _ => do
    let quantity ← vocabulary.resolve? token.val.text
    if quantity.isConstant && quantity.isDimensionless then some quantity.value else none
  | literal token, _ => Number.read? token.val.text
  | @parenthesized grammar _ inner _, _ => @fold? (.expression grammar) inner ()
  | vector _ _ _ _ _ _ _, _ => none
  | integer number, _ => do some (1.0 * (← Number.read? number.val.text))
  | negativeInteger _ number, _ => do some (-1.0 * (← Number.read? number.val.text))
  | grouped _ inner _, _ => @fold? (.expression .numeric) inner ()

/-- All names stand for something, and all exponents come to a number. -/
def Resolves : Derivation category → Prop
  | expression first rest => first.Resolves ∧ rest.Resolves
  | lastTerm | lastFactor | literal _ => True
  | sum _ _ next rest => next.Resolves ∧ rest.Resolves
  | term first rest => first.Resolves ∧ rest.Resolves
  | negated _ first rest => first.Resolves ∧ rest.Resolves
  | product _ _ next rest => next.Resolves ∧ rest.Resolves
  | silent next rest => next.Resolves ∧ rest.Resolves
  | factor base => base.Resolves
  | raised base _ exponent => base.Resolves ∧ (exponent.fold? vocabulary ()).isSome
  | name token => (vocabulary.resolve? token.val.text).isSome
  | parenthesized _ inner _ => inner.Resolves
  | vector _ _ _ left _ right _ => left.Resolves ∧ right.Resolves
  | integer _ | negativeInteger _ _ | grouped _ _ _ => True

instance decidableResolves : (derivation : Derivation category) →
    Decidable (derivation.Resolves vocabulary)
  | expression first rest | term first rest | negated _ first rest =>
    @instDecidableAnd _ _ first.decidableResolves rest.decidableResolves
  | sum _ _ next rest | product _ _ next rest | silent next rest =>
    @instDecidableAnd _ _ next.decidableResolves rest.decidableResolves
  | raised base _ _ => @instDecidableAnd _ _ base.decidableResolves inferInstance
  | vector _ _ _ left _ right _ =>
    @instDecidableAnd _ _ left.decidableResolves right.decidableResolves
  | factor base => base.decidableResolves
  | parenthesized _ inner _ => inner.decidableResolves
  | name token => inferInstanceAs (Decidable ((vocabulary.resolve? token.val.text).isSome = true))
  | lastTerm | lastFactor | literal _ | integer _ | negativeInteger _ _ | grouped _ _ _ =>
    .isTrue trivial

/-- The dimensions of a quantity, if its operations admit their operands. -/
@[simp] def judge : Derivation category → category.CarriedMeasure → Option Measure
  | expression first rest, _ => do rest.judge (← first.judge ())
  | lastTerm, total => some total
  | sum _ _ next rest, total => do rest.judge (← total.add (← next.judge ()))
  | term first rest, _ => do rest.judge (← first.judge ())
  | negated _ first rest, _ => do rest.judge (← first.judge ())
  | lastFactor, total => some total
  | product op _ next rest, total => do rest.judge (← total.multiply op (← next.judge ()))
  | silent next rest, total => do rest.judge (← total.multiply .times (← next.judge ()))
  | factor base, _ => base.judge ()
  | raised base _ exponent, _ => do
    (← base.judge ()).power (← exponent.fold? vocabulary ())
  | name token, _ => (vocabulary.resolve? token.val.text).map Quantity.measure
  | literal _, _ => some .one
  | @parenthesized grammar _ inner _, _ => @judge (.expression grammar) inner ()
  | vector op _ _ left _ right _, _ => do
    Measure.vectorProduct op (← left.judge ()) (← right.judge ())
      (vocabulary.dimension? Quantity.angleKey)
  | integer _, _ | negativeInteger _ _, _ | grouped _ _ _, _ => none

/-- What is known of the value of a quantity. -/
@[simp] def scalar : Derivation category → category.CarriedScalar → Scalar
  | expression first rest, _ => rest.scalar (first.scalar ())
  | lastTerm, total => total
  | sum op _ next rest, total => rest.scalar (total.add op (next.scalar ()))
  | term first rest, _ => (rest.scalar ((first.scalar ()).signed false)).finish
  | negated _ first rest, _ => (rest.scalar ((first.scalar ()).signed true)).finish
  | lastFactor, total => total
  | product op _ next rest, total => rest.scalar (total.multiply op (next.scalar ()))
  | silent next rest, total => rest.scalar (total.multiply .times (next.scalar ()))
  | factor base, _ => base.scalar ()
  | raised base _ exponent, _ =>
    (base.scalar ()).power ((exponent.fold? vocabulary ()).getD 0.0)
  | name token, _ => ((vocabulary.resolve? token.val.text).map Quantity.scalar).getD .unknown
  | literal token, _ => .constant ((Number.read? token.val.text).getD 0.0)
  | @parenthesized grammar _ inner _, _ => @scalar (.expression grammar) inner ()
  | vector _ _ _ _ _ _ _, _ | integer _, _ | negativeInteger _ _, _ | grouped _ _ _, _ => .unknown

/-- Whether a constant that is zero is raised to zero anywhere. -/
@[simp] def raisesZeroToZero : Derivation category → Bool
  | expression first rest => first.raisesZeroToZero || rest.raisesZeroToZero
  | sum _ _ next rest => next.raisesZeroToZero || rest.raisesZeroToZero
  | term first rest => first.raisesZeroToZero || rest.raisesZeroToZero
  | negated _ first rest => first.raisesZeroToZero || rest.raisesZeroToZero
  | product _ _ next rest => next.raisesZeroToZero || rest.raisesZeroToZero
  | silent next rest => next.raisesZeroToZero || rest.raisesZeroToZero
  | factor base => base.raisesZeroToZero
  | raised base _ exponent =>
    base.raisesZeroToZero ||
      ((base.scalar vocabulary ()).isZero && (exponent.fold? vocabulary ()).getD 0.0 == 0.0)
  | parenthesized _ inner _ => inner.raisesZeroToZero
  | vector _ _ _ left _ right _ => left.raisesZeroToZero || right.raisesZeroToZero
  | lastTerm | lastFactor | name _ | literal _ | integer _ | negativeInteger _ _
  | grouped _ _ _ => false

end Derivation

end Dimensional
