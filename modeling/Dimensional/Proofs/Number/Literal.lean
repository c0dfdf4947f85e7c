import Dimensional.Number.Literal

/-! How numbers are written, told without reading them, and that exactly what is written so can be
read. -/

namespace Dimensional

namespace Numeral

/-- Digits and nothing else, at least one. -/
structure IsRun (run : List Char) : Prop where
  some : run ≠ []
  digits : ∀ c ∈ run, c.isDigit = true

/-- Nothing, or a point and digits behind it. -/
inductive IsFraction : List Char → Prop where
  | absent : IsFraction []
  | present (isRun : IsRun run) : IsFraction ('.' :: run)

/-- Nothing, or the mark of a power of ten and digits behind it, with or without a sign. -/
inductive IsPower : List Char → Prop where
  | absent : IsPower []
  | unsigned (marked : mark = 'e' ∨ mark = 'E') (isRun : IsRun run) : IsPower (mark :: run)
  | signed (marked : mark = 'e' ∨ mark = 'E') (isSign : sign = '+' ∨ sign = '-')
      (isRun : IsRun run) : IsPower (mark :: sign :: run)

end Numeral

open Numeral

/-- The way a number is written: digits, a fraction and a power of ten. Each may be missing, but not
both the digits and the fraction. -/
inductive IsNumeral : List Char → Prop where
  | parts (digits : ∀ c ∈ whole, c.isDigit = true) (isFraction : IsFraction fractional)
      (isPower : IsPower power) (some : whole ++ fractional ≠ []) :
      IsNumeral (whole ++ (fractional ++ power))

namespace Number

/-- What can be read as a number without a sign or a word: digits and a power of ten, with a point
that needs digits on one side only. -/
inductive IsLiteral : List Char → Prop where
  | integral {whole power : List Char} (isRun : IsRun whole) (isPower : IsPower power) :
      IsLiteral (whole ++ power)
  | pointed {whole behind power : List Char} (digits : ∀ c ∈ whole, c.isDigit = true)
      (further : ∀ c ∈ behind, c.isDigit = true) (isPower : IsPower power)
      (some : whole ++ behind ≠ []) : IsLiteral (whole ++ '.' :: (behind ++ power))

/-- A word for what is not finite, in any case. -/
def IsWord (cs : List Char) : Prop :=
  String.ofList (cs.map Char.toLower) ∈ ["inf", "infinity", "nan"]

/-- What can be read as a number: one sign at most, and a literal or a word. -/
inductive IsReadable : List Char → Prop where
  | unsigned {cs : List Char} (written : IsLiteral cs ∨ IsWord cs) : IsReadable cs
  | signed {sign : Char} {cs : List Char} (isSign : sign = '+' ∨ sign = '-')
      (written : IsLiteral cs ∨ IsWord cs) : IsReadable (sign :: cs)

variable {mark : Char} {cs rest run whole power : List Char}

theorem isDigit_of_mem_takeWhile : ∀ c ∈ cs.takeWhile Char.isDigit, c.isDigit = true :=
  List.all_eq_true.mp List.all_takeWhile

/-- Digits are taken as far as they go. -/
theorem takeWhile_digits_append (digits : ∀ c ∈ whole, c.isDigit = true)
    (ends : rest.takeWhile Char.isDigit = []) :
    (whole ++ rest).takeWhile Char.isDigit = whole := by
  rw [List.takeWhile_append_of_pos digits, ends, List.append_nil]

theorem dropWhile_digits_append (digits : ∀ c ∈ whole, c.isDigit = true)
    (ends : rest.takeWhile Char.isDigit = []) :
    (whole ++ rest).dropWhile Char.isDigit = rest := by
  have others := List.takeWhile_append_dropWhile (p := Char.isDigit) (l := rest)
  rw [ends, List.nil_append] at others
  rw [List.dropWhile_append_of_pos digits, others]

theorem takeWhile_power (isPower : IsPower power) : power.takeWhile Char.isDigit = [] := by
  cases isPower with
  | absent => rfl
  | unsigned marked | signed marked => rcases marked with rfl | rfl <;> rfl

theorem marksRun_iff :
    ((mark == 'e' || mark == 'E') && !run.isEmpty && run.all Char.isDigit) = true ↔
      (mark = 'e' ∨ mark = 'E') ∧ IsRun run := by
  simp only [Bool.and_eq_true, Bool.or_eq_true, beq_iff_eq, Bool.not_eq_true',
    List.isEmpty_eq_false_iff, List.all_eq_true, and_assoc]
  refine and_congr_right fun _ => ⟨?_, fun isRun => ⟨isRun.some, isRun.digits⟩⟩
  rintro ⟨first, digits⟩
  exact ⟨first, digits⟩

theorem exponent?_isSome_iff : (exponent? cs).isSome ↔ IsPower cs := by
  constructor
  · intro read
    unfold exponent? at read
    split at read
    · exact .absent
    · dsimp only at read
      split at read
      all_goals
        obtain ⟨marked, isRun⟩ := marksRun_iff.mp (Option.isSome_ite.mp read)
      · exact .signed marked (.inr rfl) isRun
      · exact .signed marked (.inl rfl) isRun
      · exact .unsigned marked isRun
  · intro isPower
    cases isPower with
    | absent => rfl
    | unsigned marked isRun =>
      have first {c : Char} {others : List Char} (isRun : IsRun (c :: others)) :
          c.isDigit = true := isRun.digits c List.mem_cons_self
      unfold exponent?
      dsimp only
      -- A run starts with no sign.
      split
      · cases first isRun
      · cases first isRun
      · exact Option.isSome_ite.mpr (marksRun_iff.mpr ⟨marked, isRun⟩)
    | signed marked isSign isRun =>
      rcases isSign with rfl | rfl
      · exact Option.isSome_ite.mpr (marksRun_iff.mpr ⟨marked, isRun⟩)
      · exact Option.isSome_ite.mpr (marksRun_iff.mpr ⟨marked, isRun⟩)

theorem isLiteral_of_literal? (read : (literal? cs).isSome) : IsLiteral cs := by
  have parts := List.takeWhile_append_dropWhile (p := Char.isDigit) (l := cs)
  unfold literal? at read
  dsimp only at read
  rw [← parts]
  split at read
  · rename_i after pointed
    have behind := List.takeWhile_append_dropWhile (p := Char.isDigit) (l := after)
    rw [pointed, ← behind]
    split at read
    · cases read
    · rename_i some
      rw [Option.isSome_map] at read
      refine .pointed isDigit_of_mem_takeWhile isDigit_of_mem_takeWhile
        (exponent?_isSome_iff.mp read) fun none => some ?_
      obtain ⟨noWhole, noFraction⟩ := List.append_eq_nil_iff.mp none
      rw [noWhole, noFraction]
      rfl
  · split at read
    · cases read
    · rename_i some
      rw [Option.isSome_map] at read
      refine .integral ⟨fun none => some ?_, isDigit_of_mem_takeWhile⟩
        (exponent?_isSome_iff.mp read)
      rw [none]
      rfl

theorem literal?_isSome_of_isLiteral (isLiteral : IsLiteral cs) : (literal? cs).isSome := by
  cases isLiteral with
  | @integral whole power isRun isPower =>
    have ends := takeWhile_power isPower
    unfold literal?
    rw [takeWhile_digits_append isRun.digits ends, dropWhile_digits_append isRun.digits ends]
    dsimp only
    split
    · -- A power of ten starts with no point.
      cases isPower with
      | unsigned marked | signed marked => rcases marked with marked | marked <;> cases marked
    · rw [if_neg (by simp [isRun.some]), Option.isSome_map]
      exact exponent?_isSome_iff.mpr isPower
  | @pointed whole behind power digits further isPower some =>
    have ends := takeWhile_power isPower
    unfold literal?
    rw [takeWhile_digits_append digits rfl, dropWhile_digits_append digits rfl]
    simp only [takeWhile_digits_append further ends, dropWhile_digits_append further ends]
    rw [if_neg (by simpa using some), Option.isSome_map]
    exact exponent?_isSome_iff.mpr isPower

theorem literal?_isSome_iff : (literal? cs).isSome ↔ IsLiteral cs :=
  ⟨isLiteral_of_literal?, literal?_isSome_of_isLiteral⟩

theorem word?_isSome_iff : (word? cs).isSome ↔ IsWord cs := by
  unfold word? IsWord
  dsimp only
  split
  · rename_i infinite
    exact iff_of_true rfl (by simpa using infinite.imp_right .inl)
  · rename_i finite
    obtain ⟨short, long⟩ := not_or.mp finite
    simp [short, long]

theorem magnitude?_isSome_iff : (magnitude? cs).isSome ↔ IsLiteral cs ∨ IsWord cs := by
  rw [← literal?_isSome_iff, ← word?_isSome_iff]
  unfold magnitude?
  cases literal? cs with
  | none => simp
  | some decimal => simp

/-- The numbers of a source are literals, though not all literals stand in one: `1.` does not. -/
theorem IsLiteral.of_isNumeral (numeral : IsNumeral cs) : IsLiteral cs := by
  obtain ⟨digits, isFraction, isPower, some⟩ := numeral
  cases isFraction with
  | absent => exact .integral ⟨by simpa using some, digits⟩ isPower
  | present isRun =>
    exact .pointed digits isRun.digits isPower (List.append_ne_nil_of_right_ne_nil _ isRun.some)

/-- What starts with a sign is neither a literal nor a word. -/
theorem not_written_of_sign {sign : Char} (isSign : sign = '+' ∨ sign = '-') :
    ¬ (IsLiteral (sign :: cs) ∨ IsWord (sign :: cs)) := by
  rw [← literal?_isSome_iff]
  rcases isSign with rfl | rfl <;> simp [literal?, IsWord, ← String.toList_inj]

/-- Exactly what is written as a number can be read as one. -/
theorem read?_isSome_iff {text : String} : (read? text).isSome ↔ IsReadable text.toList := by
  unfold read?
  generalize text.toList = cs
  constructor
  · intro read
    split at read
    · rw [Option.isSome_map] at read
      exact .signed (.inr rfl) (magnitude?_isSome_iff.mp read)
    · exact .signed (.inl rfl) (magnitude?_isSome_iff.mp read)
    · exact .unsigned (magnitude?_isSome_iff.mp read)
  · intro readable
    cases readable with
    | unsigned written =>
      split
      · exact absurd written (not_written_of_sign (.inr rfl))
      · exact absurd written (not_written_of_sign (.inl rfl))
      · exact magnitude?_isSome_iff.mpr written
    | signed isSign written =>
      have read := magnitude?_isSome_iff.mpr written
      rcases isSign with rfl | rfl
      · exact read
      · exact Option.isSome_map.trans read

/-- Whatever is written like a number in a source can be read as one. -/
theorem read?_isSome_of_isNumeral {text : String} (numeral : IsNumeral text.toList) :
    (read? text).isSome :=
  read?_isSome_iff.mpr (.unsigned (.inl (.of_isNumeral numeral)))

end Number

end Dimensional
