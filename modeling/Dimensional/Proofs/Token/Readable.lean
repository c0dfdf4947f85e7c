import Dimensional.Proofs.Number.Literal
import Dimensional.Token.Scanner

/-! Every number that the scanner finds is written like one and can be read. -/

namespace Dimensional

open Numeral

/-- A token that the scanner gives somewhere. -/
def Token.IsScanned (token : Token) : Prop := ∃ scanner : Scanner, scanner.next.1 = token

namespace Scanner

/-- The tokens of a scanner are scanned one after another. -/
theorem isScanned_of_mem_tokens (scanner : Scanner) :
    ∀ token ∈ scanner.tokens, token.IsScanned := by
  fun_induction tokens scanner with
  | case1 scanner token behind step ends =>
    intro other member
    obtain rfl := List.mem_singleton.mp member
    exact ⟨scanner, by rw [step]⟩
  | case2 scanner token behind step continues ih =>
    intro other member
    rcases List.mem_cons.mp member with rfl | later
    · exact ⟨scanner, by rw [step]⟩
    · exact ih other later

/-- A source is scanned to all its tokens, unless one of them is invalid. -/
theorem tokenize_eq_ok_iff {source : String} {tokens : List Token} :
    tokenize source = .ok tokens ↔
      tokens = (ofString source).tokens ∧ ∀ token ∈ tokens, token.kind ≠ .invalid := by
  unfold tokenize
  dsimp only
  cases found : (ofString source).tokens.find? fun token => token.kind = .invalid with
  | some token =>
    refine ⟨nofun, ?_⟩
    rintro ⟨rfl, valid⟩
    have invalid := List.find?_some found
    exact absurd (of_decide_eq_true invalid) (valid token (List.mem_of_find?_eq_some found))
  | none =>
    have valid : ∀ token ∈ (ofString source).tokens, token.kind ≠ .invalid := by simpa using found
    constructor
    · intro h
      cases h
      exact ⟨rfl, valid⟩
    · rintro ⟨rfl, _⟩
      rfl

theorem isScanned_of_tokenize {source : String} {tokens : List Token}
    (h : tokenize source = .ok tokens) : ∀ token ∈ tokens, token.IsScanned := by
  obtain ⟨rfl, _⟩ := tokenize_eq_ok_iff.mp h
  exact isScanned_of_mem_tokens _

theorem isDigit_of_mem_digits {cs : List Char} : ∀ c ∈ digits cs, c.isDigit = true :=
  Number.isDigit_of_mem_takeWhile

theorem digits_ne_nil_of_isDigit {c : Char} {cs : List Char} (isDigit : c.isDigit = true) :
    digits (c :: cs) ≠ [] := by
  simp [digits, isDigit]

/-- A power of ten starts with its mark. -/
theorem exponent_eq_nil_or_cons (cs : List Char) :
    exponent cs = [] ∨ ∃ mark rest, (mark = 'e' ∨ mark = 'E') ∧ signedDigits rest ≠ [] ∧
      exponent cs = mark :: signedDigits rest := by
  cases cs with
  | nil => exact .inl rfl
  | cons mark rest =>
    by_cases marked : (mark = 'e' ∨ mark = 'E') ∧ signedDigits rest ≠ []
    · exact .inr ⟨mark, rest, marked.1, marked.2, if_pos marked⟩
    · exact .inl (if_neg marked)

theorem fraction_eq_nil_or_cons (cs : List Char) :
    fraction cs = [] ∨ ∃ rest, digits rest ≠ [] ∧ fraction cs = '.' :: digits rest := by
  unfold fraction
  split
  · rename_i rest
    by_cases none : digits rest = []
    · exact .inl (if_pos none)
    · exact .inr ⟨rest, none, if_neg none⟩
  · exact .inl rfl

/-- The integer of a power of ten is a run of digits with or without a sign. -/
theorem signedDigits_cases {cs : List Char} (some : signedDigits cs ≠ []) :
    ∃ run, digits run ≠ [] ∧
      (signedDigits cs = digits run ∨ signedDigits cs = '+' :: digits run ∨
        signedDigits cs = '-' :: digits run) := by
  cases cs with
  | nil => exact absurd rfl some
  | cons c cs =>
    by_cases sign : c = '+' ∨ c = '-'
    · by_cases none : digits cs = []
      · exact absurd (by simp [signedDigits, sign, none]) some
      · refine ⟨cs, none, .inr ?_⟩
        rcases sign with rfl | rfl
        · exact .inl (by simp [signedDigits, none])
        · exact .inr (by simp [signedDigits, none])
    · have plain : signedDigits (c :: cs) = digits (c :: cs) := if_neg sign
      exact ⟨c :: cs, plain ▸ some, .inl plain⟩

/-- What starts with a digit has no sign. -/
theorem signedDigits_of_isDigit {c : Char} {cs : List Char} (isDigit : c.isDigit = true) :
    signedDigits (c :: cs) = digits (c :: cs) := by
  refine if_neg ?_
  rintro (rfl | rfl) <;> cases isDigit

theorem isRun_digits {cs : List Char} (some : digits cs ≠ []) : IsRun (digits cs) :=
  ⟨some, isDigit_of_mem_digits⟩

theorem isFraction_fraction (cs : List Char) : IsFraction (fraction cs) := by
  rcases fraction_eq_nil_or_cons cs with none | ⟨rest, found, some⟩
  · rw [none]
    exact .absent
  · rw [some]
    exact .present (isRun_digits found)

theorem isPower_exponent (cs : List Char) : IsPower (exponent cs) := by
  rcases exponent_eq_nil_or_cons cs with none | ⟨mark, rest, marked, found, some⟩
  · rw [none]
    exact .absent
  · rw [some]
    obtain ⟨run, digit, plain | plus | minus⟩ := signedDigits_cases found
    · rw [plain]
      exact .unsigned marked (isRun_digits digit)
    · rw [plus]
      exact .signed marked (.inl rfl) (isRun_digits digit)
    · rw [minus]
      exact .signed marked (.inr rfl) (isRun_digits digit)

/-- What is read as a number is written like one. -/
theorem isNumeral_number {c : Char} {cs : List Char}
    (found : c.isDigit = true ∨ fraction (c :: cs) ≠ []) :
    IsNumeral (number (c :: cs)) := by
  unfold number
  rw [List.append_assoc]
  refine .parts isDigit_of_mem_digits (isFraction_fraction _) (isPower_exponent _) fun none => ?_
  obtain ⟨noWhole, noFraction⟩ := List.append_eq_nil_iff.mp none
  rcases found with digit | point
  · exact digits_ne_nil_of_isDigit digit noWhole
  · rw [noWhole] at noFraction
    exact point noFraction

theorem lexeme_number {cs taken : List Char} (h : lexeme cs = (.number, taken)) :
    ∃ c rest, cs = c :: rest ∧ (c.isDigit ∨ fraction (c :: rest) ≠ []) ∧
      taken = number (c :: rest) := by
  unfold lexeme at h
  split at h <;> try cases h
  rename_i c rest _ _ _ _ _ _ _ _ _
  split at h
  · rename_i found
    cases h
    exact ⟨c, rest, rfl, found, rfl⟩
  · split at h
    · dsimp only [nameKind] at h
      split at h
      · cases h
      · split at h <;> cases h
    · cases h

end Scanner

/-- A number that is scanned can be read. -/
theorem Token.IsScanned.readable {token : Token} (scanned : token.IsScanned)
    (isNumber : token.kind = .number) : (Number.read? token.text).isSome := by
  obtain ⟨scanner, rfl⟩ := scanned
  unfold Scanner.next at isNumber ⊢
  split at isNumber
  · cases isNumber
  · rename_i rest location _
    cases split : Scanner.lexeme rest with
    | mk kind taken =>
      rw [split] at isNumber
      cases isNumber
      obtain ⟨c, others, rfl, found, rfl⟩ := Scanner.lexeme_number split
      exact Number.read?_isSome_of_isNumeral
        (by simpa [Scanner.lexemeText] using Scanner.isNumeral_number found)

end Dimensional
