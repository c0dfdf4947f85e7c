import Dimensional.Parser.Meaning
import Dimensional.Proofs.Quantity.Algebra
import Dimensional.Proofs.Quantity.Term

/-! What sums, terms and factors are worth in quantities succeeds exactly when it is defined on
measures. -/

namespace Dimensional

/-- A worth that is a quantity with a measure and a value. -/
def Worth.Has (table : Table) (worth : Worth) (measure : Measure) (scalar : Scalar) : Prop :=
  ∃ quantity, worth = .quantity quantity ∧ quantity.Has table measure scalar

/-- A term of quantities with a measure and a value so far. -/
def Chain.Has (table : Table) (chain : Chain) (measure : Measure) (scalar : Scalar) : Prop :=
  ∃ term, chain = .quantity term ∧ term.Has table measure scalar

variable {table : Table} {left right factor worth base : Worth} {chain : Chain}
  {measure other : Measure} {scalar otherScalar : Scalar}

theorem Worth.add_meets (numbered : table.Numbered) (op : AddOp)
    (ofLeft : left.Has table measure scalar) (ofRight : right.Has table other otherScalar) :
    Meets (left.add op right) (measure.add other)
      (fun sum measure => sum.Has table measure (scalar.add op otherScalar)) := by
  obtain ⟨sum, rfl, ofSum⟩ := ofLeft
  obtain ⟨term, rfl, ofTerm⟩ := ofRight
  exact (Quantity.add_meets numbered op ofSum ofTerm).map fun quantity _ has => ⟨quantity, rfl, has⟩

theorem Chain.ofFactor_meets (numbered : table.Numbered) (negated : Bool)
    (ofFactor : factor.Has table measure scalar) :
    Meets (Chain.ofFactor .quantity negated factor) (some measure)
      (fun chain measure => chain.Has table measure (scalar.signed negated)) := by
  obtain ⟨quantity, rfl, has⟩ := ofFactor
  exact (Term.ofFactor_meets numbered negated has).map fun term _ has => ⟨term, rfl, has⟩

theorem Chain.apply_quantity {term : Term} {op : MulOp} :
    (Chain.quantity term).apply op factor =
      (Term.settled (term.apply op factor.toQuantity)).map .quantity := by
  unfold Chain.apply Term.settled
  dsimp only
  split <;> rename_i same <;> rw [same] <;> rfl

theorem Chain.apply_meets (numbered : table.Numbered) (op : MulOp)
    (ofChain : chain.Has table measure scalar) (ofFactor : factor.Has table other otherScalar) :
    Meets (chain.apply op factor) (measure.multiply op other)
      (fun chain measure => chain.Has table measure (scalar.multiply op otherScalar)) := by
  obtain ⟨term, rfl, ofTerm⟩ := ofChain
  obtain ⟨quantity, rfl, has⟩ := ofFactor
  rw [Chain.apply_quantity]
  exact (Term.apply_meets numbered op ofTerm has).map fun term _ has => ⟨term, rfl, has⟩

theorem Chain.Has.finish (ofChain : chain.Has table measure scalar) :
    chain.finish.Has table measure scalar.finish := by
  obtain ⟨term, rfl, has⟩ := ofChain
  exact ⟨term.finish, rfl, Term.Has.finish has⟩

theorem Worth.Has.ofAtom (ofWorth : worth.Has table measure scalar) :
    (Worth.ofAtom .quantity worth).Has table measure scalar := by
  obtain ⟨quantity, rfl, has⟩ := ofWorth
  exact ⟨quantity, rfl, has⟩

theorem Worth.power_meets (numbered : table.Numbered) {exponent : Float}
    (ofBase : base.Has table measure scalar) (h : (scalar.isZero && exponent == 0.0) = false) :
    Meets (base.power exponent) (measure.power exponent)
      (fun raised measure => raised.Has table measure (scalar.power exponent)) := by
  obtain ⟨quantity, rfl, has⟩ := ofBase
  exact (Quantity.power_meets numbered has h).map fun quantity _ has => ⟨quantity, rfl, has⟩

theorem Worth.power_zero_to_the_zero {exponent : Float} (ofBase : base.Has table measure scalar)
    (h : (scalar.isZero && exponent == 0.0) = true) :
    base.power exponent = .error .zeroToTheZero := by
  obtain ⟨quantity, rfl, has⟩ := ofBase
  exact congrArg (Except.map Worth.quantity) (Quantity.power_zero_to_the_zero has h)

end Dimensional
