import Dimensional.Character
import Dimensional.Token

/-! Dividing a source into tokens. Blanks, `#` comments and block comments separate tokens. -/
namespace Dimensional

/-- The characters still to be read and the place of the first of them. -/
structure Scanner where
  rest : List Char
  location : Location
deriving DecidableEq, Repr

namespace Scanner

def ofString (source : String) : Scanner := ⟨source.toList, .start⟩

/-- What the text between two tokens is made of. -/
inductive Layout where
  | blank
  | lineComment
  | blockComment
deriving DecidableEq, Repr

/-- Pass over everything up to the next token. A block comment that does not end is an error at
the end of the input. -/
def skip : Layout → Location → List Char → Except Location Scanner
  | .blank, location, [] => .ok ⟨[], location⟩
  | .blank, location, '/' :: '*' :: cs =>
    skip .blockComment ((location.after '/').after '*') cs
  | .blank, location, c :: cs =>
    if c = '#' then skip .lineComment (location.after c) cs
    else if Character.isBlank c then skip .blank (location.after c) cs
    else .ok ⟨c :: cs, location⟩
  | .lineComment, location, [] => .ok ⟨[], location⟩
  | .lineComment, location, c :: cs =>
    if c = '\n' then skip .blank (location.after c) cs else skip .lineComment (location.after c) cs
  | .blockComment, location, [] => .error location
  | .blockComment, location, '*' :: '/' :: cs =>
    skip .blank ((location.after '*').after '/') cs
  | .blockComment, location, c :: cs => skip .blockComment (location.after c) cs

/-- The leading digits. -/
def digits (cs : List Char) : List Char := cs.takeWhile Char.isDigit

/-- A point and the digits after it, if there are any. -/
def fraction : List Char → List Char
  | '.' :: cs => if digits cs = [] then [] else '.' :: digits cs
  | _ => []

/-- An optional sign and the digits after it, if there are any. -/
def signedDigits : List Char → List Char
  | [] => []
  | c :: cs =>
    if c = '+' ∨ c = '-' then if digits cs = [] then [] else c :: digits cs
    else digits (c :: cs)

/-- The mark of a power of ten and the integer after it, if there is one. -/
def exponent : List Char → List Char
  | [] => []
  | c :: cs =>
    if (c = 'e' ∨ c = 'E') ∧ signedDigits cs ≠ [] then c :: signedDigits cs else []

/-- The longest leading part that is a number. -/
def number (cs : List Char) : List Char :=
  let whole := digits cs
  let fractional := fraction (cs.drop whole.length)
  whole ++ fractional ++ exponent (cs.drop (whole.length + fractional.length))

/-- The longest leading part that is a name. -/
def name (cs : List Char) : List Char := cs.takeWhile Character.continuesName

/-- Two names are operators. -/
def nameKind (name : List Char) : Token.Kind :=
  if name = "dot".toList then .dot
  else if name = "cross".toList then .cross
  else .identifier

/-- The kind of the token that starts with the first character, and its characters. -/
def lexeme : List Char → Token.Kind × List Char
  | [] => (.eof, [])
  | '(' :: _ => (.openParen, ['('])
  | ')' :: _ => (.closeParen, [')'])
  | ',' :: _ => (.comma, [','])
  | ';' :: _ => (.semicolon, [';'])
  | '+' :: _ => (.plus, ['+'])
  | '-' :: _ => (.minus, ['-'])
  | '/' :: _ => (.over, ['/'])
  | '*' :: '*' :: _ => (.power, ['*', '*'])
  | '*' :: _ => (.times, ['*'])
  | c :: cs =>
    if c.isDigit ∨ fraction (c :: cs) ≠ [] then (.number, number (c :: cs))
    else if Character.startsName c then
      let name := name (c :: cs)
      (nameKind name, name)
    else (.invalid, [c])

/-- The text of a token. A token that is no part of an expression says what is wrong. -/
def lexemeText (kind : Token.Kind) (cs : List Char) : String :=
  if kind = .invalid then "Unexpected character: " ++ String.ofList cs else String.ofList cs

/-- The next token and the scanner behind it. -/
def next (scanner : Scanner) : Token × Scanner :=
  match skip .blank scanner.location scanner.rest with
  | .error finish => (⟨.invalid, "Unterminated block comment", finish⟩, ⟨[], finish⟩)
  | .ok ⟨rest, location⟩ =>
    let (kind, cs) := lexeme rest
    (⟨kind, lexemeText kind cs, location⟩, ⟨rest.drop cs.length, location.afterAll cs⟩)

theorem length_of_skip {layout : Layout} {location : Location} {cs : List Char} {left : Scanner}
    (h : skip layout location cs = .ok left) : left.rest.length ≤ cs.length := by
  fun_induction skip layout location cs <;> simp_all <;> grind

theorem ne_nil_of_skip_error {location finish : Location} {cs : List Char}
    (h : skip .blank location cs = .error finish) : cs ≠ [] := by
  rintro rfl
  simp [skip] at h

private theorem digits_ne_nil {c : Char} {cs : List Char} (h : c.isDigit) :
    digits (c :: cs) ≠ [] := by
  simp [digits, h]

/-- A number that is read is not empty. -/
theorem number_ne_nil {c : Char} {cs : List Char}
    (h : c.isDigit ∨ fraction (c :: cs) ≠ []) : number (c :: cs) ≠ [] := by
  intro empty
  simp only [number, List.append_eq_nil_iff] at empty
  obtain ⟨⟨whole, fractional⟩, -⟩ := empty
  rcases h with digit | point
  · exact digits_ne_nil digit whole
  · simp [whole] at fractional
    simp [fractional] at point

/-- A name that is read is not empty. -/
theorem name_ne_nil {c : Char} {cs : List Char} (h : Character.startsName c) :
    name (c :: cs) ≠ [] := by
  simp [name, Character.continuesName_of_startsName h]

/-- Only the end of the input has no characters. -/
theorem lexeme_ne_nil {cs : List Char} (h : cs ≠ []) : (lexeme cs).2 ≠ [] := by
  unfold lexeme
  split <;> try simp at h ⊢
  split
  · exact number_ne_nil (by assumption)
  · split
    · exact name_ne_nil (by assumption)
    · simp

/-- Every token but the last takes characters away. -/
theorem length_next_lt {scanner : Scanner} (h : scanner.next.1.kind ≠ .eof) :
    scanner.next.2.rest.length < scanner.rest.length := by
  unfold next at h ⊢
  split at h
  · next finish failed =>
    exact List.length_pos_iff.mpr (ne_nil_of_skip_error failed)
  · next rest location reached =>
    have shorter : rest.length ≤ scanner.rest.length := length_of_skip reached
    have some : rest ≠ [] := by rintro rfl; simp [lexeme] at h
    have taken := List.length_pos_iff.mpr (lexeme_ne_nil some)
    have left := List.length_pos_iff.mpr some
    simp only [List.length_drop]
    omega

/-- All tokens up to the end of the input, invalid ones included. -/
def tokens (scanner : Scanner) : List Token :=
  match _ : scanner.next with
  | (token, behind) => if _ : token.kind = .eof then [token] else token :: tokens behind
termination_by scanner.rest.length
decreasing_by
  have := @length_next_lt scanner
  simp_all

/-- All tokens of a source, or the first invalid one. -/
def tokenize (source : String) : Except Token (List Token) :=
  let tokens := (ofString source).tokens
  match tokens.find? fun token => token.kind = .invalid with
  | some token => .error token
  | none => .ok tokens

end Scanner

end Dimensional
