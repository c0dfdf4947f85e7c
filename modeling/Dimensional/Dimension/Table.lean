import Dimensional.AlgebraError
import Dimensional.Dimension
import Dimensional.Prime

/-! Tables of base dimensions, numbered by the primes in the order of declaration. -/
namespace Dimensional

structure Table where
  dimensions : List Dimension
deriving DecidableEq, Repr

namespace Table

def empty : Table := ⟨[]⟩

/-- The SI base units and the unit of angle. -/
def si : Table :=
  ⟨[⟨"meter", some "m", 2⟩, ⟨"kilogram", some "kg", 3⟩, ⟨"second", some "s", 5⟩,
    ⟨"ampere", some "A", 7⟩, ⟨"kelvin", some "K", 11⟩, ⟨"mole", some "mol", 13⟩,
    ⟨"candela", some "cd", 17⟩, ⟨"radian", some "rad", 19⟩]⟩

/-- The dimension that answers to a name or symbol. -/
def get? (table : Table) (key : String) : Option Dimension :=
  table.dimensions.find? fun dimension => dimension.answersTo key

/-- The first of a new dimension's keys that already has an answer. -/
def taken? (table : Table) (name : String) (symbol? : Option String) : Option String :=
  if (table.get? name).isSome then some name
  else symbol?.filter fun symbol => (table.get? symbol).isSome

/-- The prime of the last dimension declared. -/
def lastPrime (table : Table) : Nat :=
  (table.dimensions.getLast?.map Dimension.prime).getD 1

/-- Declare a dimension under the next prime. -/
def insert (table : Table) (name : String) (symbol? : Option String) :
    Except AlgebraError (Dimension × Table) :=
  match table.taken? name symbol? with
  | some key => .error (.duplicateDimension key)
  | none =>
    match Prime.nextPrime? table.lastPrime with
    | none => .error .overflow
    | some prime =>
      let dimension := ⟨name, symbol?, prime⟩
      .ok (dimension, ⟨table.dimensions ++ [dimension]⟩)

/-- A key is taken exactly when some dimension answers to it. -/
theorem get?_isSome_iff {table : Table} {key : String} :
    (table.get? key).isSome ↔ ∃ dimension ∈ table.dimensions, dimension.answersTo key := by
  simp [get?, List.find?_isSome]

end Table

end Dimensional
