import Dimensional.Operator
import Dimensional.Token

/-! The two grammars of expressions, and which tokens start what in them. -/
namespace Dimensional

inductive Grammar where
  /-- Constants only, worth a number. -/
  | numeric
  /-- Quantities, worth a value with dimensions. -/
  | quantity
deriving DecidableEq, Repr

/-- What a factor starts with. -/
inductive Opening where
  | name
  | literal
  | parenthesis
  | vector (op : VectorOp)
deriving DecidableEq, Repr

namespace Grammar

/-- The factor that a token starts, if it starts one. Vector products are quantities only. -/
def opening? : Grammar → Token.Kind → Option Opening
  | _, .identifier => some .name
  | _, .number => some .literal
  | _, .openParen => some .parenthesis
  | .quantity, .dot => some (.vector .dot)
  | .quantity, .cross => some (.vector .cross)
  | _, _ => none

/-- Whether a token starts an expression. -/
def opens (grammar : Grammar) (kind : Token.Kind) : Bool :=
  kind = .minus || (grammar.opening? kind).isSome

theorem opening?_eof {grammar : Grammar} : grammar.opening? .eof = none := by
  cases grammar <;> rfl

end Grammar

/-- The operator between terms that a token is. -/
def AddOp.ofKind? : Token.Kind → Option AddOp
  | .plus => some .plus
  | .minus => some .minus
  | _ => none

/-- The operator between factors that a token is. -/
def MulOp.ofKind? : Token.Kind → Option MulOp
  | .times => some .times
  | .over => some .over
  | _ => none

end Dimensional
