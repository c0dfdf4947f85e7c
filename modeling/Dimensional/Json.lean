/-! Values written as JSON, as far as their text tells them apart. -/
namespace Dimensional

/-- A number as it is written. -/
structure Json.Numeral where
  negative : Bool
  whole : List Char
  fraction? : Option (List Char)
  /-- Whether the power of ten is negative, and its digits. -/
  exponent? : Option (Bool × List Char)
deriving DecidableEq, Repr

/-- A JSON value. Members keep their order and repeat if the text repeats them. A string is missing
where its escapes do not add up to characters. -/
inductive Json where
  | null
  | boolean (value : Bool)
  | number (numeral : Json.Numeral)
  | string (text? : Option String)
  | array (items : List Json)
  | object (members : List (Option String × Json))
deriving Repr

end Dimensional
