import Dimensional.Json.Fields
import Dimensional.Json.Reader
import Dimensional.Quantity

/-! Quantities recorded as JSON, their products of primes included. A record is taken as it is:
nothing checks that its products belong to its dimensions. -/
namespace Dimensional

/-- A field of a record that is null or left out. An array of fields may leave nothing out. -/
def Json.absentable? {α : Type} (value? : Json → Option α) : Option Json → Option (Option α) :=
  Json.optional? none (Json.nullable? value?)

/-- The fields of a record, which are all there if it is an array. -/
def Json.record? (names : List String) (json : Json) : Option (List (Option Json)) :=
  match json with
  | .array items => if items.length = names.length then some (items.map some) else none
  | _ => json.fields? names

def Dimension.ofJson? (json : Json) : Option Dimension :=
  match json.record? ["name", "symbol", "prime"] with
  | some [name, symbol, prime] => do
    return {
      name := ← Json.required? Json.text? name
      symbol? := ← Json.absentable? Json.text? symbol
      prime := ← Json.required? (Json.nat? (1 <<< 64)) prime }
  | _ => none

def Quantity.ofJson? (json : Json) : Option Quantity :=
  match json.record? ["identifier", "numerator", "denominator", "numerator_prime_product",
    "denominator_prime_product", "is_vector", "is_constant", "has_value", "value"] with
  | some [identifier, numerator, denominator, numeratorProduct, denominatorProduct, isVector,
      isConstant, hasValue, value] => do
    return {
      identifier? := ← Json.absentable? Json.text? identifier
      numerator := {
        factors := ← Json.required? (Json.list? Dimension.ofJson?) numerator
        product := ← Json.required? (Json.nat? Monomial.bound) numeratorProduct }
      denominator := {
        factors := ← Json.required? (Json.list? Dimension.ofJson?) denominator
        product := ← Json.required? (Json.nat? Monomial.bound) denominatorProduct }
      isVector := ← Json.required? Json.boolean? isVector
      isConstant := ← Json.required? Json.boolean? isConstant
      hasValue := ← Json.optional? false Json.boolean? hasValue
      value := ← Json.required? Json.float? value }
  | _ => none

/-- The quantity that a text records. -/
def Quantity.ofText? (text : String) : Option Quantity :=
  (Json.ofText? text).bind Quantity.ofJson?

end Dimensional
