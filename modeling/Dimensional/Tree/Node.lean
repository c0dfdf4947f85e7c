import Dimensional.Grammar
import Dimensional.Quantity
import Dimensional.Tree

/-! The nodes of expression trees: one for each production of the grammars and one for each operator
between two operands. -/
namespace Dimensional

/-- What a node is worth: its value, and the quantity that it stands for unless it is a bare number.
Nothing here ties the value to that of the quantity. -/
structure Worth where
  value : Float
  quantity? : Option Quantity
deriving DecidableEq, Repr

namespace Worth

/-- A bare number. -/
def number (value : Float) : Worth := ⟨value, none⟩

/-- A quantity with the value that is its own. -/
def quantity (quantity : Quantity) : Worth := ⟨quantity.value, some quantity⟩

@[simp] theorem value_number (value : Float) : (number value).value = value := rfl

@[simp] theorem quantity?_number (value : Float) : (number value).quantity? = none := rfl

@[simp] theorem value_quantity (annotated : Quantity) :
    (quantity annotated).value = annotated.value := rfl

@[simp] theorem quantity?_quantity (annotated : Quantity) :
    (quantity annotated).quantity? = some annotated := rfl

theorem quantity_ne_number {annotated : Quantity} {value : Float} :
    quantity annotated ≠ number value := fun same => nomatch congrArg quantity? same

theorem quantity_inj {annotated other : Quantity} :
    quantity annotated = quantity other ↔ annotated = other :=
  ⟨fun same => Option.some.inj (congrArg quantity? same), congrArg quantity⟩

/-- A bare number has no dimensions and does not count as known. -/
def toQuantity (worth : Worth) : Quantity :=
  worth.quantity?.getD .unknown

/-- Numbers are constant. -/
def isConstant (worth : Worth) : Bool :=
  worth.quantity?.all Quantity.isConstant

end Worth

/-- The productions of the grammars, the operators and the atoms. -/
inductive Shape where
  | expression (grammar : Grammar)
  | term
  | factor
  /-- A minus in front of a term or an integer. -/
  | negation
  | sum (op : AddOp)
  | product (op : MulOp)
  | power
  | integer
  | vector (op : VectorOp)
  | identifier
  | number
deriving DecidableEq, Repr

namespace Shape

def name : Shape → String
  | expression .numeric => "NumericExpression"
  | expression .quantity => "QuantityExpression"
  | term => "Term"
  | factor => "Factor"
  | negation => "UnaryOp"
  | sum _ => "LowPrecedenceBinaryOp"
  | product _ => "MidPrecedenceBinaryOp"
  | power => "HighPrecedenceBinaryOp"
  | integer => "Integer"
  | vector _ => "VectorOp"
  | identifier => "Identifier"
  | number => "Number"

/-- The text of an operator. -/
def operator? : Shape → Option String
  | negation => some "-"
  | sum op => some op.symbol
  | product op => some op.symbol
  | power => some "**"
  | vector op => some op.keyword
  | _ => none

/-- Names and literals have no parts. -/
def isAtom : Shape → Bool
  | identifier | number => true
  | _ => false

end Shape

structure Node where
  shape : Shape
  location : Location
  worth : Worth := .number 0.0
  /-- The number of a free name among the names of its expression. -/
  parameter? : Option Nat := none
  identifier? : Option String := none
deriving DecidableEq, Repr

namespace Node

def value (node : Node) : Float := node.worth.value

def quantity? (node : Node) : Option Quantity := node.worth.quantity?

/-- The name and number of a numbered name. -/
def parameterEntry? (node : Node) : Option (String × Nat) :=
  match node.identifier?, node.parameter? with
  | some identifier, some number => some (identifier, number)
  | _, _ => none

end Node

/-- An expression that has been read. -/
abbrev Expression : Type := Tree Node

namespace Expression

/-- The numbered names of an expression, in the order of their numbers. -/
def parameters (expression : Expression) : List (String × Nat) :=
  ((expression.walk.filterMap Node.parameterEntry?).mergeSort fun left right =>
    left.2 ≤ right.2).eraseReps

end Expression

end Dimensional
