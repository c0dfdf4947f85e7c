import Dimensional.Number.Decimal

/-! Reading numbers: digits, an optional fraction and an optional power of ten, or a word for what is
not finite, with an optional sign. -/
namespace Dimensional.Number

/-- The number that a run of decimal digits denotes. -/
def ofDigits (cs : List Char) : Nat :=
  cs.foldl (fun n c => 10 * n + (c.toNat - '0'.toNat)) 0

/-- The double nearest to a decimal, ties to even. Decimals beyond the doubles' range are decided
by the place of their first digit alone. -/
def Decimal.toFloat (decimal : Decimal) : Float :=
  let first := (digits decimal.coefficient).length + decimal.place
  if decimal.coefficient = 0 ∨ first < -330 then 0.0
  else if 310 < first then 1.0 / 0.0
  else Float.ofScientific decimal.coefficient (decimal.place < 0) decimal.place.natAbs

/-- The power of ten after a literal's digits, which is 0 where none is written. -/
def exponent? : List Char → Option Int
  | [] => some 0
  | mark :: rest =>
    let (negative, run) := match rest with
      | '-' :: run => (true, run)
      | '+' :: run => (false, run)
      | run => (false, run)
    if (mark == 'e' || mark == 'E') && !run.isEmpty && run.all Char.isDigit then
      some (if negative then -(ofDigits run : Int) else ofDigits run)
    else none

/-- The decimal that a literal's characters denote. -/
def literal? (cs : List Char) : Option Decimal :=
  let whole := cs.takeWhile Char.isDigit
  let rest := cs.dropWhile Char.isDigit
  let (fraction, tail) := match rest with
    | '.' :: after => (after.takeWhile Char.isDigit, after.dropWhile Char.isDigit)
    | _ => ([], rest)
  if whole.isEmpty && fraction.isEmpty then none
  else (exponent? tail).map fun e => ⟨ofDigits (whole ++ fraction), e - fraction.length⟩

/-- The words for what no digits denote, in any case. -/
def word? (cs : List Char) : Option Float :=
  let word := String.ofList (cs.map Char.toLower)
  if word = "inf" ∨ word = "infinity" then some (1.0 / 0.0)
  else if word = "nan" then some (0.0 / 0.0)
  else none

/-- The double nearest to what is written without a sign. -/
def magnitude? (cs : List Char) : Option Float :=
  match literal? cs with
  | some decimal => some decimal.toFloat
  | none => word? cs

/-- The double nearest to what a literal denotes. A sign may stand before it. -/
def read? (literal : String) : Option Float :=
  match literal.toList with
  | '-' :: cs => (magnitude? cs).map fun magnitude => -magnitude
  | '+' :: cs => magnitude? cs
  | cs => magnitude? cs

end Dimensional.Number
