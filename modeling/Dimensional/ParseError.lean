import Dimensional.AlgebraError
import Dimensional.Grammar

/-! What can be wrong with the text of an expression. -/
namespace Dimensional

/-- What the parser looks for. -/
inductive Expectation where
  | token (kind : Token.Kind)
  | expression (grammar : Grammar)
  | factor (grammar : Grammar)
  | exponent
deriving DecidableEq, Repr

def Expectation.describe : Expectation → String
  | .token kind => kind.describe
  | .expression .numeric => "numeric expression"
  | .expression .quantity => "quantity expression"
  | .factor .numeric => "identifier, number or '('"
  | .factor .quantity => "identifier, number, '(' or vector operator"
  | .exponent => "integer exponent or '('"

inductive ParseError where
  /-- Text that is no token. -/
  | invalidToken (token : Token)
  | invalidNumber (token : Token)
  | unexpected (expected : Expectation) (found : Token)
  | unknownIdentifier (name : Token)
  /-- A name in a numeric expression whose value is not known. -/
  | notConstant (name : Token)
  /-- A name in a numeric expression that has dimensions, given as text. -/
  | notDimensionless (name : Token) (dimensions : String)
  /-- More expressions inside one another than the limit. -/
  | tooDeep (limit : Nat)
  /-- An operation that its operands do not admit, and the place of its operator. -/
  | algebra (error : AlgebraError) (location : Location)
deriving DecidableEq, Repr

namespace ParseError

/-- The place of the token at fault. -/
def location? : ParseError → Option Location
  | .invalidToken token | .invalidNumber token | .unexpected _ token | .unknownIdentifier token
  | .notConstant token | .notDimensionless token _ => some token.location
  | .algebra _ location => some location
  | .tooDeep _ => none

def message : ParseError → String
  | .invalidToken token => "Lex error at " ++ token.location.text ++ ": " ++ token.text
  | .invalidNumber token =>
    "Lex error at " ++ token.location.text ++ ": Invalid number: " ++ token.text
  | .unexpected expected found =>
    "Parse error at " ++ found.location.text ++ ": expected " ++ expected.describe ++
      ", found " ++ found.describe
  | .unknownIdentifier name =>
    "Unknown identifier '" ++ name.text ++ "' at " ++ name.location.text
  | .notConstant name =>
    "Identifier '" ++ name.text ++ "' at " ++ name.location.text ++ " is not a constant"
  | .notDimensionless name dimensions =>
    "Identifier '" ++ name.text ++ "' at " ++ name.location.text ++ " has dimensions '" ++
      dimensions ++ "' where a dimensionless value is required"
  | .tooDeep limit => "Expression too deeply nested (max depth: " ++ toString limit ++ ")"
  | .algebra error location =>
    "Dimension error at " ++ location.text ++ ": " ++ error.message

end ParseError

end Dimensional
