/-! Base dimensions. -/
namespace Dimensional

/-- A base dimension. Its prime tells it apart from the other dimensions of its table. -/
structure Dimension where
  name : String
  symbol? : Option String
  prime : Nat
deriving DecidableEq, Repr

/-- The symbol, or the name of a dimension that has none. -/
def Dimension.label (dimension : Dimension) : String :=
  dimension.symbol?.getD dimension.name

/-- A dimension answers to its name and to its symbol. -/
def Dimension.answersTo (dimension : Dimension) (key : String) : Bool :=
  dimension.name == key || dimension.symbol? == some key

end Dimensional
