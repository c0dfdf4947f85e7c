/-! The operators of expressions and the arithmetic that they do on known values. -/
namespace Dimensional

/-- The operators between terms. -/
inductive AddOp where
  | plus
  | minus
deriving DecidableEq, Repr

/-- The operators between factors. -/
inductive MulOp where
  | times
  | over
deriving DecidableEq, Repr

/-- The products of two vectors. -/
inductive VectorOp where
  | dot
  | cross
deriving DecidableEq, Repr

def AddOp.symbol : AddOp → String
  | .plus => "+"
  | .minus => "-"

def AddOp.apply : AddOp → Float → Float → Float
  | .plus, left, right => left + right
  | .minus, left, right => left - right

def MulOp.symbol : MulOp → String
  | .times => "*"
  | .over => "/"

/-- What has been done to two operands. -/
def MulOp.participle : MulOp → String
  | .times => "multiplied"
  | .over => "divided"

/-- The operator that undoes this one. -/
def MulOp.inverse : MulOp → MulOp
  | .times => .over
  | .over => .times

/-- A right operand that is zero is passed over. -/
def MulOp.apply (op : MulOp) (left right : Float) : Float :=
  if right == 0.0 then left
  else match op with
    | .times => left * right
    | .over => left / right

def VectorOp.keyword : VectorOp → String
  | .dot => "dot"
  | .cross => "cross"

end Dimensional
