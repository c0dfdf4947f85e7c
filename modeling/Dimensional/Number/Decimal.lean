import Dimensional.Number.Exact

/-! The decimal text of a double: the fewest digits that read back, written without an exponent. -/
namespace Dimensional.Number

/-- The decimal digits of a number. -/
def digits (n : Nat) : List Char :=
  Nat.toDigits 10 n

/-- A decimal `coefficient * 10 ^ place`. -/
structure Decimal where
  coefficient : Nat
  place : Int
deriving DecidableEq, Repr

/-- The reals that a positive double stands for, in units of `2 ^ -1076`: its own value and the
midpoints towards its two neighbours. The ends belong to it when its significand is even. -/
structure Basin where
  low : Nat
  middle : Nat
  high : Nat
  closed : Bool
deriving DecidableEq, Repr

/-- The gap below a power of two is half the gap above it. -/
def Basin.of (significand : Nat) (power : Int) : Basin :=
  let unit := 1 <<< (power + 1074).toNat
  let below := if significand = 1 <<< 52 ∧ power ≠ -1074 then 1 else 2
  ⟨(4 * significand - below) * unit, 4 * significand * unit, (4 * significand + 2) * unit,
    significand % 2 == 0⟩

/-- Whether `value / scale` lies in the basin. -/
def Basin.contains (basin : Basin) (value scale : Nat) : Bool :=
  if basin.closed then basin.low * scale ≤ value && value ≤ basin.high * scale
  else basin.low * scale < value && value < basin.high * scale

/-- The nearer of the two neighbours of the middle on the grid of multiples of `10 ^ place` that
lies in the basin; the upper one when both are equally near. -/
def Basin.onGrid? (basin : Basin) (place : Int) : Option Decimal :=
  let step := Nat.pow 10 place.toNat <<< 1076
  let scale := Nat.pow 10 (-place).toNat
  let middle := basin.middle * scale
  let lower := middle / step
  let upper := lower + 1
  let lowerFits := 0 < lower && basin.contains (lower * step) scale
  let upperFits := basin.contains (upper * step) scale
  if upperFits && (!lowerFits || upper * step - middle ≤ middle - lower * step) then
    some ⟨upper, place⟩
  else if lowerFits then some ⟨lower, place⟩
  else none

/-- The place of the first digit of `middle / 2 ^ 1076`. -/
def Basin.leadingPlace (basin : Basin) : Int :=
  ((digits ((basin.middle * Nat.pow 10 330) >>> 1076)).length : Int) - 331

/-- The decimal with the fewest digits in the basin: seventeen always suffice. -/
def Basin.shortest (basin : Basin) : Decimal :=
  let first := basin.leadingPlace
  ((List.range 17).findSome? fun (n : Nat) => basin.onGrid? (first - n)).getD ⟨0, 0⟩

/-- Digits after the point are dropped when they are zeros. -/
def Decimal.text (decimal : Decimal) : String :=
  let all := digits decimal.coefficient ++ List.replicate decimal.place.toNat '0'
  let fractional := (-decimal.place).toNat
  let padded := List.replicate (fractional + 1 - all.length) '0' ++ all
  let whole := padded.take (padded.length - fractional)
  let fraction := (padded.drop (padded.length - fractional)).reverse.dropWhile (· == '0')
  if fraction.isEmpty then String.ofList whole
  else String.ofList (whole ++ '.' :: fraction.reverse)

/-- The text of a double in labels, reports and messages. -/
def text (x : Float) : String :=
  match exact x with
  | .nan => "NaN"
  | .infinite negative => if negative then "-inf" else "inf"
  | .finite negative significand power =>
    let magnitude := if significand = 0 then "0" else (Basin.of significand power).shortest.text
    if negative then "-" ++ magnitude else magnitude

end Dimensional.Number
