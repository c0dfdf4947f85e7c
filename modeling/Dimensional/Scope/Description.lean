import Dimensional.Json.Fields
import Dimensional.Json.Reader
import Dimensional.Scope

/-! Scopes described by lists of declarations, and such descriptions as JSON. -/
namespace Dimensional.Scope

structure DimensionDeclaration where
  name : String
  symbol? : Option String
deriving DecidableEq, Repr

structure ConstantDeclaration where
  name : String
  value : Float
deriving DecidableEq, Repr

/-- A quantity by the keys of its dimensions. One whose value is given is a constant. -/
structure QuantityDeclaration where
  name : String
  numerator : List String
  denominator : List String
  isVector : Bool
  value? : Option Float
deriving DecidableEq, Repr

structure Description where
  includeSi : Bool
  dimensions : List DimensionDeclaration
  constants : List ConstantDeclaration
  quantities : List QuantityDeclaration
deriving DecidableEq, Repr

/-- Declare base dimensions in order, so that their primes follow the order. -/
def declareDimensions (scope : Scope) (declarations : List DimensionDeclaration) :
    Except ScopeError Scope :=
  declarations.foldlM (fun scope declaration =>
    match scope.insertDimension declaration.name declaration.symbol? with
    | .ok (_, extended) => .ok extended
    | .error error => .error (.dimension error)) scope

def declareConstants (scope : Scope) (declarations : List ConstantDeclaration) : Scope :=
  declarations.foldl (fun scope declaration =>
    scope.bindConstant declaration.name declaration.value) scope

/-- The quantity that a declaration describes. -/
def declared (scope : Scope) (declaration : QuantityDeclaration) : Except ScopeError Quantity :=
  (scope.quantity declaration.name declaration.numerator declaration.denominator).map fun quantity =>
    let oriented := { quantity with isVector := declaration.isVector }
    match declaration.value? with
    | some value => { oriented with isConstant := true, hasValue := true, value }
    | none => oriented

/-- Bind quantities in order. The last one of a name stays. -/
def declareQuantities (scope : Scope) (declarations : List QuantityDeclaration) :
    Except ScopeError Scope :=
  declarations.foldlM (fun scope declaration =>
    (scope.declared declaration).map (scope.bind declaration.name)) scope

/-- The scope that a description describes. Quantities replace constants of their names. -/
def ofDescription (description : Description) : Except ScopeError Scope := do
  let base := if description.includeSi then si else empty
  let scope ← base.declareDimensions description.dimensions
  (scope.declareConstants description.constants).declareQuantities description.quantities

def DimensionDeclaration.ofJson? (json : Json) : Option DimensionDeclaration :=
  match json.fields? ["name", "symbol"] with
  | some [name, symbol] => do
    return {
      name := ← Json.required? Json.text? name
      symbol? := ← Json.optional? none (Json.nullable? Json.text?) symbol }
  | _ => none

def ConstantDeclaration.ofJson? (json : Json) : Option ConstantDeclaration :=
  match json.fields? ["name", "value"] with
  | some [name, value] => do
    return {
      name := ← Json.required? Json.text? name
      value := ← Json.required? Json.float? value }
  | _ => none

def QuantityDeclaration.ofJson? (json : Json) : Option QuantityDeclaration :=
  match json.fields? ["name", "numerator", "denominator", "vector", "value"] with
  | some [name, numerator, denominator, vector, value] => do
    return {
      name := ← Json.required? Json.text? name
      numerator := ← Json.optional? [] (Json.list? Json.text?) numerator
      denominator := ← Json.optional? [] (Json.list? Json.text?) denominator
      isVector := ← Json.optional? false Json.boolean? vector
      value? := ← Json.optional? none (Json.nullable? Json.float?) value }
  | _ => none

def Description.ofJson? (json : Json) : Option Description :=
  match json.fields? ["include_si", "dimensions", "constants", "quantities"] with
  | some [includeSi, dimensions, constants, quantities] => do
    return {
      includeSi := ← Json.optional? false Json.boolean? includeSi
      dimensions := ← Json.optional? [] (Json.list? DimensionDeclaration.ofJson?) dimensions
      constants := ← Json.optional? [] (Json.list? ConstantDeclaration.ofJson?) constants
      quantities := ← Json.optional? [] (Json.list? QuantityDeclaration.ofJson?) quantities }
  | _ => none

/-- The description that a text is. -/
def Description.ofText? (text : String) : Option Description :=
  (Json.ofText? text).bind Description.ofJson?

/-- The scope that a text describes. -/
def ofText (text : String) : Except ScopeError Scope :=
  match Description.ofText? text with
  | some description => ofDescription description
  | none => .error .malformed

end Dimensional.Scope
