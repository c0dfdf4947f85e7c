import Dimensional.Dimension.Table
import Dimensional.Quantity

/-! Scopes: what the names in expressions mean. -/
namespace Dimensional

/-- The two meanings that a name can have: a quantity bound to it, or a base dimension. -/
structure Vocabulary where
  quantity? : String → Option Quantity
  dimension? : String → Option Dimension

/-- Whether a name is the name or symbol of a base dimension. -/
def Vocabulary.knowsDimension (vocabulary : Vocabulary) (name : String) : Bool :=
  (vocabulary.dimension? name).isSome

/-- What a name stands for in a quantity. Bound quantities come before dimensions. -/
def Vocabulary.resolve? (vocabulary : Vocabulary) (name : String) : Option Quantity :=
  match vocabulary.quantity? name with
  | some quantity => some quantity
  | none => (vocabulary.dimension? name).map Quantity.ofDimension

/-- What can be wrong with a description of a scope. -/
inductive ScopeError where
  /-- Text that describes no scope. -/
  | malformed
  | unknownDimension (key : String)
  | dimension (error : AlgebraError)
  | quantity (name : String) (error : AlgebraError)
deriving DecidableEq, Repr

/-- The message of an error; what is wrong with malformed text is not told. -/
def ScopeError.message? : ScopeError → Option String
  | .malformed => none
  | .unknownDimension key =>
    some ("Scope configuration error: " ++ (AlgebraError.unknownDimension key).message)
  | .dimension error => some ("Scope configuration error: " ++ error.message)
  | .quantity name error =>
    some ("Scope configuration error: quantity '" ++ name ++ "': " ++ error.message)

/-- A table of dimensions and the quantities bound to names, at most one to each. -/
structure Scope where
  table : Table
  bindings : List (String × Quantity)
deriving DecidableEq, Repr

namespace Scope

def ofTable (table : Table) : Scope := ⟨table, []⟩

def empty : Scope := ofTable .empty

/-- The quantity bound to a name. -/
def get? (scope : Scope) (name : String) : Option Quantity :=
  scope.bindings.lookup name

/-- Bind a name. The quantity takes the name as its identifier. -/
def bind (scope : Scope) (name : String) (quantity : Quantity) : Scope :=
  { scope with
    bindings := (name, quantity.named name) :: scope.bindings.filter fun entry => entry.1 != name }

def bindConstant (scope : Scope) (name : String) (value : Float) : Scope :=
  scope.bind name (.constant value)

/-- The SI base units, the unit of angle and `Pi`. -/
def si : Scope := (ofTable .si).bindConstant "Pi" 3.141592653589793

/-- Multiply by the dimension under a key, for the quantity of the given name. -/
def multiplyKey (scope : Scope) (name : String) (monomial : Monomial) (key : String) :
    Except ScopeError Monomial :=
  match scope.table.get? key with
  | none => .error (.unknownDimension key)
  | some dimension => (monomial.append [dimension]).mapError (.quantity name)

/-- The product of the dimensions under some keys. -/
def monomial (scope : Scope) (name : String) (keys : List String) : Except ScopeError Monomial :=
  keys.foldlM (scope.multiplyKey name) .one

/-- The quantity with the dimensions under some keys above and below the line. -/
def quantity (scope : Scope) (name : String) (numerator denominator : List String) :
    Except ScopeError Quantity := do
  let numerator ← scope.monomial name numerator
  let denominator ← scope.monomial name denominator
  return { Quantity.unknown with numerator, denominator }

def bindQuantity (scope : Scope) (name : String) (numerator denominator : List String) :
    Except ScopeError Scope :=
  (scope.quantity name numerator denominator).map (scope.bind name)

/-- Declare a further base dimension. -/
def insertDimension (scope : Scope) (name : String) (symbol? : Option String) :
    Except AlgebraError (Dimension × Scope) :=
  (scope.table.insert name symbol?).map fun (dimension, table) =>
    (dimension, { scope with table })

def vocabulary (scope : Scope) : Vocabulary :=
  ⟨scope.get?, scope.table.get?⟩

end Scope

end Dimensional
