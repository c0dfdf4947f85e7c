import Dimensional.Quantity.Algebra
import Dimensional.Quantity.Term
import Dimensional.Tree.Node

/-! What sums, terms and factors are worth in each grammar. -/
namespace Dimensional

namespace Worth

/-- What a factor is worth that is an atom alone. Numeric factors keep the value only. -/
def ofAtom : Grammar → Worth → Worth
  | .numeric, atom => .number atom.value
  | .quantity, atom => .quantity atom.toQuantity

/-- A factor raised to a number. Zero to the zero is refused. -/
def power (base : Worth) (exponent : Float) : Except AlgebraError Worth :=
  match base.quantity? with
  | none =>
    if base.value == 0.0 && exponent == 0.0 then .error .zeroToTheZero
    else .ok (.number (Number.power base.value exponent))
  | some quantity => (quantity.power exponent).map .quantity

/-- A sum and one more term. -/
def add (sum : Worth) (op : AddOp) (term : Worth) : Except AlgebraError Worth :=
  match sum.quantity? with
  | none => .ok (.number (op.apply sum.value term.value))
  | some quantity => (quantity.add op term.toQuantity).map .quantity

theorem power_number {base exponent : Float} : (number base).power exponent =
    if base == 0.0 && exponent == 0.0 then .error .zeroToTheZero
    else .ok (.number (Number.power base exponent)) := rfl

theorem add_number {sum : Float} {op : AddOp} {term : Worth} :
    (number sum).add op term = .ok (.number (op.apply sum term.value)) := rfl

end Worth

/-- A term as far as it has been read. -/
inductive Chain where
  | number (value : Float)
  | quantity (term : Term)
deriving DecidableEq, Repr

namespace Chain

/-- A term of one factor, with its sign. -/
def ofFactor : Grammar → Bool → Worth → Except AlgebraError Chain
  | .numeric, negated, factor => .ok (.number ((if negated then -1.0 else 1.0) * factor.value))
  | .quantity, negated, factor => (Term.ofFactor negated factor.toQuantity).map .quantity

/-- A term and one more factor. -/
def apply : Chain → MulOp → Worth → Except AlgebraError Chain
  | .number value, op, factor => .ok (.number (op.apply value factor.value))
  | .quantity term, op, factor =>
    match term.apply op factor.toQuantity with
    | (.ok (), extended) => .ok (.quantity extended)
    | (.error error, _) => .error error

/-- What the whole term is worth. -/
def finish : Chain → Worth
  | .number value => .number value
  | .quantity term => .quantity term.finish

end Chain

end Dimensional
