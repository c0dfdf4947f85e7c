import Dimensional.Parser.Source
import Dimensional.Recent

/-! Reading sources in a fixed scope, with the quantities read last at hand. -/
namespace Dimensional

/-- An expression, numbered among the quantities that have been read. -/
structure Compiled where
  serial : Nat
  expression : Expression
deriving DecidableEq, Repr

structure Compiler where
  scope : Scope
  cache : Recent Compiled
  /-- How many quantities have been read. -/
  count : Nat

namespace Compiler

def defaultCapacity : Nat := 1000

/-- A compiler that keeps some number of quantities at hand. -/
def ofCapacity (scope : Scope) (capacity : Nat) : Compiler := ⟨scope, .ofCapacity capacity, 0⟩

def ofScope (scope : Scope) : Compiler := ofCapacity scope defaultCapacity

def setting (compiler : Compiler) : Parser.Setting := .standard compiler.scope.vocabulary

/-- The quantity that a source is. It is read once as long as the cache holds it; failures are not
kept. -/
def quantity (compiler : Compiler) (source : String) :
    Except ParseError Compiled × Compiler :=
  match compiler.cache.use? source with
  | some (compiled, cache) => (.ok compiled, { compiler with cache })
  | none =>
    match Parser.read compiler.setting .quantity source with
    | .error error => (.error error, compiler)
    | .ok expression =>
      let compiled := ⟨compiler.count, expression⟩
      (.ok compiled, { compiler with
        cache := compiler.cache.put source compiled, count := compiler.count + 1 })

/-- The numeric expression that a source is. -/
def numeric (compiler : Compiler) (source : String) : Except ParseError Expression :=
  Parser.read compiler.setting .numeric source

/-- The expressions that a source lists. -/
def statements (compiler : Compiler) (grammar : Grammar) (source : String) :
    Except ParseError (List Expression) :=
  Parser.readAll compiler.setting grammar source

def cachedCount (compiler : Compiler) : Nat := compiler.cache.size

end Compiler

end Dimensional
