import Dimensional.AlgebraError
import Dimensional.Dimension

/-! Products of dimensions. -/
namespace Dimensional

/-- A product of dimensions in the order in which they were multiplied, and the product of their
primes, which is the same in every order. -/
structure Monomial where
  factors : List Dimension
  product : Nat
deriving DecidableEq, Repr

namespace Monomial

def one : Monomial := ⟨[], 1⟩

/-- Products of primes stay below this bound. -/
def bound : Nat := 1 <<< 128

/-- Multiply a product of primes by further primes. -/
def multiply? (product : Nat) (dimensions : List Dimension) : Option Nat :=
  dimensions.foldlM (fun product dimension =>
    if product * dimension.prime < bound then some (product * dimension.prime) else none) product

/-- Multiply by further dimensions, all or none. -/
def append (monomial : Monomial) (dimensions : List Dimension) : Except AlgebraError Monomial :=
  match multiply? monomial.product dimensions with
  | some product => .ok ⟨monomial.factors ++ dimensions, product⟩
  | none => .error .overflow

/-- The labels of the factors, joined by `*`. -/
def text (monomial : Monomial) : String :=
  "*".intercalate (monomial.factors.map Dimension.label)

end Monomial

end Dimensional
