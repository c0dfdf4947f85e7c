/-! The tokens of expressions and their places in the source. -/
namespace Dimensional

/-- A place between characters: how many precede it, and its line and column counted from 1. -/
structure Location where
  position : Nat
  line : Nat
  column : Nat
deriving DecidableEq, Repr

namespace Location

def start : Location := ⟨0, 1, 1⟩

/-- The place after one more character. Only a line feed starts a line. -/
def after (location : Location) (c : Char) : Location :=
  if c = '\n' then ⟨location.position + 1, location.line + 1, 1⟩
  else ⟨location.position + 1, location.line, location.column + 1⟩

/-- The place after some more characters. -/
def afterAll (location : Location) (cs : List Char) : Location :=
  cs.foldl after location

def text (location : Location) : String :=
  "line " ++ toString location.line ++ ", column " ++ toString location.column

end Location

namespace Token

inductive Kind where
  | identifier
  | number
  | dot
  | cross
  | plus
  | minus
  | times
  | over
  | power
  | openParen
  | closeParen
  | comma
  | semicolon
  | eof
  | invalid
deriving DecidableEq, Repr

def Kind.describe : Kind → String
  | .identifier => "identifier"
  | .number => "number"
  | .dot => "'dot'"
  | .cross => "'cross'"
  | .plus => "'+'"
  | .minus => "'-'"
  | .times => "'*'"
  | .over => "'/'"
  | .power => "'**'"
  | .openParen => "'('"
  | .closeParen => "')'"
  | .comma => "','"
  | .semicolon => "';'"
  | .eof => "end of input"
  | .invalid => "invalid token"

end Token

/-- A token, the text it was written with and the place of its first character. -/
structure Token where
  kind : Token.Kind
  text : String
  location : Location
deriving DecidableEq, Repr

namespace Token

/-- The token at the end of the input. -/
def eof (location : Location) : Token := ⟨.eof, "", location⟩

/-- A token in words, such as `identifier 'mass'`. -/
def describe (token : Token) : String :=
  match token.kind with
  | .identifier | .number => token.kind.describe ++ " '" ++ token.text ++ "'"
  | kind => kind.describe

/-- The place as many columns further as the token's text has bytes. -/
def finish (token : Token) : Location :=
  let width := token.text.utf8ByteSize
  ⟨token.location.position + width, token.location.line, token.location.column + width⟩

end Token

end Dimensional
