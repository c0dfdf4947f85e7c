import Dimensional.Json

/-! Reading JSON text, strictly by its grammar. -/
namespace Dimensional.Json.Reader

/-- What is left after the blanks of JSON. -/
def skipBlank (cs : List Char) : List Char :=
  cs.dropWhile fun c => c == ' ' || c == '\n' || c == '\t' || c == '\r'

/-- A part of a string: a character, or the number of a UTF-16 unit. -/
inductive Piece where
  | char (c : Char)
  | unit (code : Nat)
deriving DecidableEq, Repr

/-- The value of a hexadecimal digit. -/
def hexDigit? (c : Char) : Option Nat :=
  if c.isDigit then some (c.toNat - '0'.toNat)
  else if 'a' ≤ c ∧ c ≤ 'f' then some (c.toNat - 'a'.toNat + 10)
  else if 'A' ≤ c ∧ c ≤ 'F' then some (c.toNat - 'A'.toNat + 10)
  else none

/-- The value of four hexadecimal digits. -/
def hexUnit? (a b c d : Char) : Option Nat := do
  return (((← hexDigit? a) * 16 + (← hexDigit? b)) * 16 + (← hexDigit? c)) * 16 + (← hexDigit? d)

/-- The character that a letter after a backslash stands for. -/
def escape? : Char → Option Char
  | '"' => some '"'
  | '\\' => some '\\'
  | '/' => some '/'
  | 'b' => some '\x08'
  | 'f' => some '\x0c'
  | 'n' => some '\n'
  | 'r' => some '\r'
  | 't' => some '\t'
  | _ => none

/-- The pieces of a string up to its closing quote, and what is left after it. -/
def pieces : List Char → Option (List Piece × List Char)
  | [] => none
  | '"' :: rest => some ([], rest)
  | '\\' :: 'u' :: a :: b :: c :: d :: rest => do
    let code ← hexUnit? a b c d
    let (more, rest) ← pieces rest
    return (.unit code :: more, rest)
  | '\\' :: c :: rest => do
    let escaped ← escape? c
    let (more, rest) ← pieces rest
    return (.char escaped :: more, rest)
  | c :: rest => do
    guard (' ' ≤ c ∧ c ≠ '\\')
    let (more, rest) ← pieces rest
    return (.char c :: more, rest)

/-- The characters that pieces stand for. The units of the surrogate range stand for one only in
pairs, the high one first. -/
def characters? : List Piece → Option (List Char)
  | [] => some []
  | .char c :: rest => (characters? rest).map (c :: ·)
  | .unit high :: .unit low :: rest =>
    if 0xD800 ≤ high ∧ high < 0xDC00 then
      if 0xDC00 ≤ low ∧ low < 0xE000 then
        (characters? rest).map
          (Char.ofNat (0x10000 + (high - 0xD800) * 0x400 + (low - 0xDC00)) :: ·)
      else none
    else if 0xDC00 ≤ high ∧ high < 0xE000 then none
    else (characters? (.unit low :: rest)).map (Char.ofNat high :: ·)
  | .unit code :: rest =>
    if 0xD800 ≤ code ∧ code < 0xE000 then none
    else (characters? rest).map (Char.ofNat code :: ·)

/-- The string after an opening quote. -/
def string (cs : List Char) : Option (Option String × List Char) := do
  let (pieces, rest) ← pieces cs
  return ((characters? pieces).map String.ofList, rest)

/-- One digit or more. -/
def digits (cs : List Char) : Option (List Char × List Char) :=
  let run := cs.takeWhile Char.isDigit
  if run.isEmpty then none else some (run, cs.dropWhile Char.isDigit)

/-- The fraction of a number, if a point announces one. -/
def fraction : List Char → Option (Option (List Char) × List Char)
  | '.' :: rest => do
    let (run, rest) ← digits rest
    return (some run, rest)
  | cs => some (none, cs)

/-- The power of ten of a number, if a letter announces one. -/
def exponent : List Char → Option (Option (Bool × List Char) × List Char)
  | [] => some (none, [])
  | c :: rest =>
    if c == 'e' || c == 'E' then do
      let (negative, rest) := match rest with
        | '-' :: rest => (true, rest)
        | '+' :: rest => (false, rest)
        | rest => (false, rest)
      let (run, rest) ← digits rest
      return (some (negative, run), rest)
    else some (none, c :: rest)

/-- A number. A zero starts no longer number. -/
def numeral (cs : List Char) : Option (Numeral × List Char) := do
  let (negative, cs) := match cs with
    | '-' :: rest => (true, rest)
    | cs => (false, cs)
  let (whole, rest) ← digits cs
  guard (whole.length = 1 ∨ whole.head? ≠ some '0')
  let (fraction?, rest) ← fraction rest
  let (exponent?, rest) ← exponent rest
  return ({ negative, whole, fraction?, exponent? }, rest)

mutual

/-- A value and what is left after it. Every step takes up fuel, and no more than two of them come
to each character. -/
def value : Nat → List Char → Option (Json × List Char)
  | 0, _ => none
  | fuel + 1, cs =>
    match skipBlank cs with
    | 'n' :: 'u' :: 'l' :: 'l' :: rest => some (.null, rest)
    | 't' :: 'r' :: 'u' :: 'e' :: rest => some (.boolean true, rest)
    | 'f' :: 'a' :: 'l' :: 's' :: 'e' :: rest => some (.boolean false, rest)
    | '"' :: rest => (string rest).map fun (text?, rest) => (.string text?, rest)
    | '[' :: rest =>
      match skipBlank rest with
      | ']' :: rest => some (.array [], rest)
      | rest => (items fuel rest).map fun (items, rest) => (.array items, rest)
    | '\x7b' :: rest =>
      match skipBlank rest with
      | '\x7d' :: rest => some (.object [], rest)
      | rest => (members fuel rest).map fun (members, rest) => (.object members, rest)
    | rest => (numeral rest).map fun (numeral, rest) => (.number numeral, rest)

/-- The items of an array up to its closing bracket. -/
def items : Nat → List Char → Option (List Json × List Char)
  | 0, _ => none
  | fuel + 1, cs => do
    let (item, rest) ← value fuel cs
    match skipBlank rest with
    | ',' :: rest =>
      let (more, rest) ← items fuel rest
      return (item :: more, rest)
    | ']' :: rest => return ([item], rest)
    | _ => none

/-- The members of an object up to its closing brace. -/
def members : Nat → List Char → Option (List (Option String × Json) × List Char)
  | 0, _ => none
  | fuel + 1, cs =>
    match skipBlank cs with
    | '"' :: rest => do
      let (key?, rest) ← string rest
      match skipBlank rest with
      | ':' :: rest =>
        let (member, rest) ← value fuel rest
        match skipBlank rest with
        | ',' :: rest =>
          let (more, rest) ← members fuel rest
          return ((key?, member) :: more, rest)
        | '\x7d' :: rest => return ([(key?, member)], rest)
        | _ => none
      | _ => none
    | _ => none

end

end Reader

/-- The value that a text is, with nothing but blanks around it. -/
def ofText? (text : String) : Option Json := do
  let cs := text.toList
  let (read, rest) ← Reader.value (2 * cs.length + 2) cs
  guard (Reader.skipBlank rest).isEmpty
  return read

end Dimensional.Json
