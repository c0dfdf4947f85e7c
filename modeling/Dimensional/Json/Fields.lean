import Dimensional.Json.Numeral

/-! Taking values of known types out of JSON values. -/
namespace Dimensional.Json

def boolean? : Json → Option Bool
  | boolean value => some value
  | _ => none

def text? : Json → Option String
  | string text? => text?
  | _ => none

def float? : Json → Option Float
  | number numeral => numeral.toFloat?
  | _ => none

/-- A natural number below a bound. -/
def nat? (bound : Nat) : Json → Option Nat
  | number numeral => numeral.toNat? bound
  | _ => none

/-- An array whose items are all of one type. -/
def list? {α : Type} (item? : Json → Option α) : Json → Option (List α)
  | array items => items.mapM item?
  | _ => none

/-- A value that may be null. -/
def nullable? {α : Type} (value? : Json → Option α) : Json → Option (Option α)
  | null => some none
  | json => (value? json).map some

/-- The values of the named fields, in the order of the names. A record is an object, whose further
members do not matter, or the array of its fields in order, of which the last may be left out. -/
def fields? (names : List String) : Json → Option (List (Option Json))
  | array items =>
    if items.length ≤ names.length then
      some (items.map some ++ List.replicate (names.length - items.length) none)
    else none
  | object members => do
    let members ← members.mapM fun (key?, value) => key?.map fun key => (key, value)
    let known := members.filter fun (key, _) => names.contains key
    guard ((known.map Prod.fst).eraseDups.length = known.length)
    return names.map fun name => known.lookup name
  | _ => none

/-- A field that has to be there. -/
def required? {α : Type} (value? : Json → Option α) (field? : Option Json) : Option α :=
  field?.bind value?

/-- A field that stands for a default where it is left out. -/
def optional? {α : Type} (default : α) (value? : Json → Option α) : Option Json → Option α
  | none => some default
  | some json => value? json

end Dimensional.Json
