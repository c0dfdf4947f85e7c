import Dimensional.Character.Alphabetic
import Dimensional.Character.Numeric

/-! The classes of characters that the scanner tells apart. -/
namespace Dimensional.Character

/-- Whether a code point lies in one of the given runs. -/
def within (ranges : List (Nat × Nat)) (code : Nat) : Bool :=
  ranges.any fun (first, last) => first ≤ code && code ≤ last

/-- The characters with the Unicode property White_Space. -/
def isBlank (c : Char) : Bool :=
  within [(0x9, 0xD), (0x20, 0x20), (0x85, 0x85), (0xA0, 0xA0), (0x1680, 0x1680), (0x2000, 0x200A),
    (0x2028, 0x2029), (0x202F, 0x202F), (0x205F, 0x205F), (0x3000, 0x3000)] c.toNat

/-- The characters with the Unicode property Alphabetic. -/
def isAlphabetic (c : Char) : Bool :=
  if c.toNat < 0x80 then c.isAlpha else within alphabeticRanges c.toNat

/-- The characters of the Unicode categories Nd, Nl and No. -/
def isNumeric (c : Char) : Bool :=
  if c.toNat < 0x80 then c.isDigit else within numericRanges c.toNat

/-- A name starts with a letter of any script or an underscore. -/
def startsName (c : Char) : Bool :=
  isAlphabetic c || c == '_'

/-- A name goes on with letters and numerals of any script and underscores. -/
def continuesName (c : Char) : Bool :=
  startsName c || isNumeric c

/-- A name may go on with every character that may start one. -/
theorem continuesName_of_startsName {c : Char} (h : startsName c) : continuesName c := by
  simp [continuesName, h]

end Dimensional.Character
