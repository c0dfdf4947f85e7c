import Dimensional.Proofs.Token.Spacing

/-! The scanner takes the longest part of the text that is written like a number. -/

namespace Dimensional

open Numeral

namespace Scanner

variable {c sign : Char} {cs run whole fractional power text rest taken : List Char}

/-! Digits, a fraction and a power of ten that stand first are read as far as they go. -/

section Longest

theorem digits_append (all : ∀ c ∈ run, c.isDigit = true) :
    digits (run ++ rest) = run ++ digits rest :=
  List.takeWhile_append_of_pos all

theorem digits_append_ne_nil (isRun : IsRun run) : digits (run ++ rest) ≠ [] := by
  rw [digits_append isRun.digits]
  exact List.append_ne_nil_of_left_ne_nil isRun.some _

theorem signedDigits_run (isRun : IsRun run) :
    signedDigits (run ++ rest) = run ++ digits rest := by
  obtain ⟨first, others, rfl⟩ := List.exists_cons_of_ne_nil isRun.some
  have isDigit := isRun.digits first List.mem_cons_self
  rw [← digits_append isRun.digits, List.cons_append, signedDigits_of_isDigit isDigit]

theorem signedDigits_sign (isSign : sign = '+' ∨ sign = '-') (isRun : IsRun run) :
    signedDigits (sign :: (run ++ rest)) = sign :: (run ++ digits rest) := by
  rw [signedDigits, if_pos isSign, if_neg (digits_append_ne_nil isRun), digits_append isRun.digits]

theorem fraction_isPrefix_of_isFraction (isFraction : IsFraction fractional) :
    fractional <+: fraction (fractional ++ rest) := by
  cases isFraction with
  | absent => exact List.nil_prefix
  | @present run isRun =>
    rw [List.cons_append, fraction, if_neg (digits_append_ne_nil isRun), digits_append isRun.digits]
    exact List.prefix_append ('.' :: run) _

theorem exponent_isPrefix_of_isPower (isPower : IsPower power) :
    power <+: exponent (power ++ rest) := by
  cases isPower with
  | absent => exact List.nil_prefix
  | @unsigned mark run marked isRun =>
    have read : signedDigits (run ++ rest) = run ++ digits rest := signedDigits_run isRun
    have some : signedDigits (run ++ rest) ≠ [] :=
      read ▸ List.append_ne_nil_of_left_ne_nil isRun.some _
    rw [List.cons_append, exponent, if_pos ⟨marked, some⟩, read]
    exact List.prefix_append (mark :: run) _
  | @signed mark sign run marked isSign isRun =>
    have read : signedDigits (sign :: (run ++ rest)) = sign :: (run ++ digits rest) :=
      signedDigits_sign isSign isRun
    have some : signedDigits (sign :: (run ++ rest)) ≠ [] := read ▸ List.cons_ne_nil _ _
    rw [List.cons_append, List.cons_append, exponent, if_pos ⟨marked, some⟩, read]
    exact List.prefix_append (mark :: sign :: run) _

/-- A power of ten goes on with no digits. -/
theorem digits_power_append (isPower : IsPower power) (some : power ≠ []) :
    digits (power ++ rest) = [] := by
  cases isPower with
  | absent => exact absurd rfl some
  | unsigned marked | signed marked => rcases marked with rfl | rfl <;> rfl

/-- A fraction ends where a power of ten begins. -/
theorem fraction_append_power (isFraction : IsFraction fractional) (isPower : IsPower power)
    (some : power ≠ []) : fraction (fractional ++ (power ++ rest)) = fractional := by
  cases isFraction with
  | absent =>
    cases isPower with
    | absent => exact absurd rfl some
    | unsigned marked | signed marked => rcases marked with rfl | rfl <;> rfl
  | present isRun =>
    rw [List.cons_append, fraction, if_neg (digits_append_ne_nil isRun), digits_append isRun.digits,
      digits_power_append isPower some, List.append_nil]

theorem digits_fraction_append (isFraction : IsFraction fractional) (isPower : IsPower power)
    (some : fractional ++ power ≠ []) : digits (fractional ++ power ++ rest) = [] := by
  cases isFraction with
  | absent => exact digits_power_append isPower some
  | present => rfl

/-- Digits that are followed by none are the first part of a number. -/
theorem number_append (all : ∀ c ∈ whole, c.isDigit = true) (ends : digits rest = []) :
    number (whole ++ rest) =
      whole ++ (fraction rest ++ exponent (rest.drop (fraction rest).length)) := by
  have whole_eq : digits (whole ++ rest) = whole := by
    rw [digits_append all, ends, List.append_nil]
  unfold number
  dsimp only
  rw [whole_eq, ← List.drop_drop, List.drop_left, List.append_assoc]

/-- No number that stands first is longer than the one that is read. -/
theorem isPrefix_number (numeral : IsNumeral text) (starts : text <+: cs) : text <+: number cs := by
  obtain @⟨whole, fractional, power, digits, isFraction, isPower, -⟩ := numeral
  obtain ⟨rest, rfl⟩ := starts
  by_cases bare : fractional ++ power = []
  · rw [bare, List.append_nil, number, digits_append digits, List.append_assoc, List.append_assoc]
    exact List.prefix_append _ _
  · rw [List.append_assoc, number_append digits (digits_fraction_append isFraction isPower bare),
      List.prefix_append_right_inj, List.append_assoc]
    by_cases plain : power = []
    · rw [plain, List.append_nil, List.nil_append]
      exact (fraction_isPrefix_of_isFraction isFraction).trans (List.prefix_append _ _)
    · rw [fraction_append_power isFraction isPower plain, List.drop_left,
        List.prefix_append_right_inj]
      exact exponent_isPrefix_of_isPower isPower

end Longest

/-- Where a number stands first, the scanner finds one. -/
theorem starts_of_isNumeral (numeral : IsNumeral text) (starts : text <+: cs) :
    ∃ c rest, cs = c :: rest ∧ (c.isDigit = true ∨ fraction (c :: rest) ≠ []) := by
  obtain @⟨whole, fractional, power, digits, isFraction, -, some⟩ := numeral
  obtain ⟨rest, rfl⟩ := starts
  cases whole with
  | cons c others => exact ⟨c, _, rfl, .inl (digits c List.mem_cons_self)⟩
  | nil =>
    cases isFraction with
    | absent => exact absurd rfl some
    | @present run isRun =>
      refine ⟨'.', run ++ (power ++ rest), by simp, .inr ?_⟩
      rw [fraction, if_neg (digits_append_ne_nil isRun)]
      exact List.cons_ne_nil _ _

/-- The characters that a number is written with. -/
theorem mem_of_isNumeral (numeral : IsNumeral text) (member : c ∈ text) :
    c.isDigit = true ∨ c ∈ ['.', 'e', 'E', '+', '-'] := by
  obtain ⟨digits, isFraction, isPower, -⟩ := numeral
  simp only [List.mem_append] at member
  rcases member with inWhole | inFraction | inPower
  · exact .inl (digits c inWhole)
  · cases isFraction with
    | absent => cases inFraction
    | present isRun =>
      exact (List.mem_cons.mp inFraction).symm.imp (isRun.digits c) (by rintro rfl; decide)
  · cases isPower with
    | absent => cases inPower
    | unsigned marked isRun =>
      refine (List.mem_cons.mp inPower).symm.imp (isRun.digits c) ?_
      rintro rfl
      rcases marked with rfl | rfl <;> decide
    | signed marked isSign isRun =>
      rcases List.mem_cons.mp inPower with rfl | others
      · rcases marked with rfl | rfl <;> decide
      · refine (List.mem_cons.mp others).symm.imp (isRun.digits c) ?_
        rintro rfl
        rcases isSign with rfl | rfl <;> decide

/-- A token is a number exactly where one stands first, and is the longest one there. -/
theorem lexeme_eq_number_iff : lexeme cs = (.number, taken) ↔
    IsNumeral taken ∧ taken <+: cs ∧ ∀ text, IsNumeral text → text <+: cs → text <+: taken := by
  constructor
  · intro read
    obtain ⟨c, rest, rfl, found, rfl⟩ := lexeme_number read
    exact ⟨isNumeral_number found, number_isPrefix _, fun _ => isPrefix_number⟩
  · rintro ⟨numeral, starts, longest⟩
    obtain ⟨c, rest, rfl, found⟩ := starts_of_isNumeral numeral starts
    have read : number (c :: rest) <+: taken :=
      longest _ (isNumeral_number found) (number_isPrefix _)
    have same := (isPrefix_number numeral starts).eq_of_length_le read.length_le
    rw [lexeme_eq_number found, same]

theorem kind_eq_number_iff :
    (lexeme cs).1 = .number ↔ ∃ text, IsNumeral text ∧ text <+: cs := by
  constructor
  · intro isNumber
    obtain ⟨numeral, starts, _⟩ := lexeme_eq_number_iff.mp (Prod.ext isNumber rfl)
    exact ⟨_, numeral, starts⟩
  · rintro ⟨text, numeral, starts⟩
    obtain ⟨c, rest, rfl, found⟩ := starts_of_isNumeral numeral starts
    rw [lexeme_eq_number found]

/-! A token is the first one in the text that starts at its place. -/

section Place

variable {before : List Char} {scanner : Scanner} {token : Token}

/-- A token between some text before it and some behind it. -/
structure Stands (token : Token) (gap beyond : List Char) : Prop where
  place : token.location = .behind gap
  read : lexeme (token.text.toList ++ beyond) = (token.kind, token.text.toList)

namespace Stands

variable {gap beyond : List Char}

theorem drop_eq (stands : Stands token gap beyond) :
    (gap ++ (token.text.toList ++ beyond)).drop token.location.position =
      token.text.toList ++ beyond := by
  rw [stands.place, Location.behind, List.drop_left]

theorem drop_behind_eq (stands : Stands token gap beyond) :
    (gap ++ (token.text.toList ++ beyond)).drop (token.location.position + token.text.length) =
      beyond := by
  rw [← List.drop_drop, stands.drop_eq, ← String.length_toList, List.drop_left]

end Stands

theorem stands_next (place : scanner.location = .behind before)
    (valid : scanner.next.1.kind ≠ .invalid) :
    ∃ gap beyond, before ++ scanner.rest = gap ++ (scanner.next.1.text.toList ++ beyond) ∧
      Stands scanner.next.1 gap beyond := by
  obtain ⟨ahead, location⟩ := scanner
  obtain rfl : location = .behind before := place
  unfold next at valid ⊢
  dsimp only at valid ⊢
  split at valid
  · exact absurd rfl valid
  · rename_i rest location reached
    obtain ⟨gap, rfl, rfl, _⟩ := closes_of_skip reached
    obtain ⟨beyond, parts⟩ := lexeme_isPrefix rest
    dsimp only at valid ⊢
    refine ⟨before ++ gap, beyond, ?_, Location.behind_append.symm, ?_⟩
    · rw [lexemeText, if_neg valid, String.toList_ofList, parts, List.append_assoc]
    · dsimp only
      rw [lexemeText, if_neg valid, String.toList_ofList, parts]

/-- The induction follows the calls of the scanner. -/
theorem stands_of_mem_tokens (place : scanner.location = .behind before) :
    ∀ token ∈ scanner.tokens, token.kind ≠ .invalid →
      ∃ gap beyond, before ++ scanner.rest = gap ++ (token.text.toList ++ beyond) ∧
        Stands token gap beyond := by
  fun_induction tokens scanner generalizing before with
  | case1 scanner token left step ends =>
    have first := stands_next place
    rw [step] at first
    exact fun other member => List.mem_singleton.mp member ▸ first
  | case2 scanner token left step continues ih =>
    have first := stands_next place
    obtain ⟨passed, parts, later, _⟩ := reads_next place
    rw [step] at first parts later
    refine List.forall_mem_cons.mpr ⟨first, fun other member => ?_⟩
    rw [parts, ← List.append_assoc]
    exact ih later other member

theorem exists_stands {source : String} (member : token ∈ (ofString source).tokens)
    (valid : token.kind ≠ .invalid) :
    ∃ gap beyond, source.toList = gap ++ (token.text.toList ++ beyond) ∧
      Stands token gap beyond :=
  @stands_of_mem_tokens [] (ofString source) rfl token member valid

/-- Every call gives one of the tokens. -/
theorem call_mem_tokens (source : String) (k : Nat) :
    (ofString source).call k ∈ (ofString source).tokens := by
  obtain ⟨others, split, _, continues⟩ := (divides_ofString source).ends
  rw [call_eq_getD k split continues, split]
  cases found : others[k]? with
  | none => simp
  | some token => exact List.mem_append_left _ (List.mem_of_getElem? found)

end Place

end Scanner

end Dimensional
