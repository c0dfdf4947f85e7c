import Dimensional.Proofs.Except
import Dimensional.Proofs.Token.Division
import Dimensional.Proofs.Token.Readable
import Mathlib.Data.List.TakeWhile

/-! Tokens may be written with any layout between them. Scanned again they are the same tokens. -/

namespace Dimensional

namespace Character

/-- The code points of blanks. -/
def blankCodes : List Nat :=
  [0x9, 0xA, 0xB, 0xC, 0xD, 0x20, 0x85, 0xA0, 0x1680, 0x2000, 0x2001, 0x2002, 0x2003, 0x2004,
    0x2005, 0x2006, 0x2007, 0x2008, 0x2009, 0x200A, 0x2028, 0x2029, 0x202F, 0x205F, 0x3000]

theorem mem_blankCodes {c : Char} (isBlank : isBlank c = true) : c.toNat ∈ blankCodes := by
  simp only [Character.isBlank, within, List.any_cons, List.any_nil, Bool.or_false,
    Bool.or_eq_true, Bool.and_eq_true, decide_eq_true_eq] at isBlank
  simp only [blankCodes, List.mem_cons, List.not_mem_nil, or_false]
  omega

/-- No name goes on with a blank, and no blank is part of an operator or a number. -/
theorem not_continuesName_of_isBlank {c : Char} (isBlank : isBlank c = true) :
    continuesName c = false ∧ c ≠ '.' ∧ c ≠ '*' ∧ c ≠ '/' ∧ c ≠ '#' := by
  have all : ∀ code ∈ blankCodes, continuesName (Char.ofNat code) = false ∧ Char.ofNat code ≠ '.' ∧
      Char.ofNat code ≠ '*' ∧ Char.ofNat code ≠ '/' ∧ Char.ofNat code ≠ '#' := by
    decide +kernel
  have known := all c.toNat (mem_blankCodes isBlank)
  rwa [Char.ofNat_toNat] at known

end Character

/-- What a token says, wherever it stands. -/
def Token.symbol (token : Token) : Token.Kind × String := (token.kind, token.text)

namespace Scanner

/-- A character that layout starts with. -/
def opensLayout (c : Char) : Prop := Character.isBlank c = true ∨ c = '#' ∨ c = '/'

section Skip

variable {location : Location} {gap body rest beyond cs : List Char}

theorem skip_lineComment (inLine : '\n' ∉ body) :
    skip .lineComment location (body ++ '\n' :: rest) =
      skip .blank (location.afterAll (body ++ ['\n'])) rest := by
  induction body generalizing location with
  | nil => rfl
  | cons c body ih =>
    obtain ⟨other, others⟩ := not_or.mp (List.mem_cons.not.mp inLine)
    rw [List.cons_append, skip, if_neg (Ne.symm other), ih others]
    rfl

theorem skip_lastComment (inLine : '\n' ∉ body) :
    skip .lineComment location body = .ok ⟨[], location.afterAll body⟩ := by
  induction body generalizing location with
  | nil => rfl
  | cons c body ih =>
    obtain ⟨other, others⟩ := not_or.mp (List.mem_cons.not.mp inLine)
    rw [skip, if_neg (Ne.symm other), ih others]
    rfl

/-- A block comment is passed over up to where it closes first. -/
theorem skip_blockComment (inside : ¬ ['*', '/'] <:+: body ++ ['*']) :
    skip .blockComment location (body ++ '*' :: '/' :: rest) =
      skip .blank (location.afterAll (body ++ ['*', '/'])) rest := by
  induction body generalizing location with
  | nil => rfl
  | cons c body ih =>
    rw [List.cons_append, List.infix_cons_iff, not_or] at inside
    have continues : ∀ more, c = '*' → body ++ '*' :: '/' :: rest = '/' :: more → False := by
      rintro more rfl same
      cases body with
      | nil => cases (List.cons_eq_cons.mp same).1
      | cons d body =>
        obtain ⟨rfl, _⟩ := List.cons_eq_cons.mp same
        exact inside.1 ⟨_, rfl⟩
    rw [List.cons_append, skip, ih inside.2]
    · rfl
    · exact continues

theorem skip_hash :
    skip .blank location ('#' :: cs) = skip .lineComment (location.after '#') cs := by
  rw [skip, if_pos rfl]
  rintro _ ⟨⟩

theorem skip_comment (isComment : IsComment gap beyond) :
    skip .blank location (gap ++ beyond) = skip .blank (location.afterAll gap) beyond := by
  cases isComment with
  | line inLine =>
    rw [List.cons_append, List.append_assoc, List.singleton_append, skip_hash]
    exact skip_lineComment inLine
  | lastLine inLine =>
    rw [List.append_nil, skip_hash]
    exact skip_lastComment inLine
  | @block body _ inside =>
    have split : '/' :: '*' :: (body ++ ['*', '/']) ++ beyond =
        '/' :: '*' :: (body ++ '*' :: '/' :: beyond) := by simp
    rw [split, skip]
    exact skip_blockComment inside

/-- The scanner passes over all layout. -/
theorem skip_layout (layout : IsLayout gap beyond) :
    skip .blank location (gap ++ beyond) = skip .blank (location.afterAll gap) beyond := by
  induction layout generalizing location with
  | nil => rfl
  | @blank c gap beyond isBlank _ ih =>
    obtain ⟨_, _, _, noSlash, noHash⟩ := Character.not_continuesName_of_isBlank isBlank
    rw [List.cons_append, skip, if_neg noHash, if_pos isBlank, ih]
    · rfl
    · rintro _ rfl
      exact absurd rfl noSlash
  | @comment text gap beyond isComment _ ih =>
    rw [List.append_assoc, skip_comment isComment, ih]
    unfold Location.afterAll
    rw [List.foldl_append]

theorem opensLayout_of_isLayout {c : Char} (layout : IsLayout (c :: gap) beyond) :
    opensLayout c := by
  generalize same : c :: gap = whole at layout
  induction layout with
  | nil => cases same
  | blank isBlank =>
    obtain ⟨rfl, _⟩ := List.cons_eq_cons.mp same
    exact .inl isBlank
  | @comment _ gap beyond isComment =>
    generalize gap ++ beyond = rest at isComment
    cases isComment with
    | line | lastLine =>
      obtain ⟨rfl, _⟩ := List.cons_eq_cons.mp same
      exact .inr (.inl rfl)
    | block =>
      obtain ⟨rfl, _⟩ := List.cons_eq_cons.mp same
      exact .inr (.inr rfl)

end Skip

/-- Nothing or layout follows. -/
def Breaks (rest : List Char) : Prop := ∀ c ∈ rest.head?, opensLayout c

section Breaks

variable {c : Char} {cs run rest : List Char}

theorem not_continuesName_of_opensLayout (opens : opensLayout c) :
    Character.continuesName c = false ∧ c ≠ '.' ∧ c ≠ '*' := by
  rcases opens with isBlank | rfl | rfl
  · obtain ⟨ends, noPoint, noStar, _⟩ := Character.not_continuesName_of_isBlank isBlank
    exact ⟨ends, noPoint, noStar⟩
  · decide
  · decide

theorem toNat_lt_of_isDigit (isDigit : c.isDigit = true) : c.toNat < 0x80 := by
  simp only [Char.isDigit, Bool.and_eq_true, decide_eq_true_eq] at isDigit
  exact Nat.lt_of_le_of_lt isDigit.2 (by decide)

theorem continuesName_of_isDigit (isDigit : c.isDigit = true) :
    Character.continuesName c = true := by
  have small := toNat_lt_of_isDigit isDigit
  simp [Character.continuesName, Character.isNumeric, small, isDigit]

theorem not_startsName_of_isDigit (isDigit : c.isDigit = true) :
    Character.startsName c = false := by
  simp only [Char.isDigit, Bool.and_eq_true, decide_eq_true_eq] at isDigit
  have all : ∀ code ∈ List.range' 48 10, Character.startsName (Char.ofNat code) = false := by
    decide +kernel
  have known := all c.toNat (List.mem_range'_1.mpr ⟨isDigit.1, Nat.lt_succ_of_le isDigit.2⟩)
  rwa [Char.ofNat_toNat] at known

namespace Breaks

variable (breaks : Breaks rest)

include breaks

theorem name_eq_nil : name rest = [] := by
  cases rest with
  | nil => rfl
  | cons c rest =>
    exact List.takeWhile_cons_of_neg
      (by rw [(not_continuesName_of_opensLayout (breaks c rfl)).1]; exact Bool.false_ne_true)

theorem digits_eq_nil : rest.takeWhile Char.isDigit = [] := by
  cases rest with
  | nil => rfl
  | cons c rest =>
    refine List.takeWhile_cons_of_neg fun isDigit => ?_
    have continues := continuesName_of_isDigit isDigit
    rw [(not_continuesName_of_opensLayout (breaks c rfl)).1] at continues
    cases continues

theorem fraction_eq_nil : fraction rest = [] := by
  unfold fraction
  split
  · exact absurd rfl (not_continuesName_of_opensLayout (breaks '.' rfl)).2.1
  · rfl

theorem exponent_eq_nil : exponent rest = [] := by
  cases rest with
  | nil => rfl
  | cons c rest =>
    refine if_neg fun marked => ?_
    have ends := (not_continuesName_of_opensLayout (breaks c rfl)).1
    rcases marked.1 with rfl | rfl <;> cases ends

/-- A name is read to its end. -/
theorem name_append (all : ∀ c ∈ run, Character.continuesName c = true) :
    name (run ++ rest) = run := by
  have ends : rest.takeWhile Character.continuesName = [] := breaks.name_eq_nil
  unfold name
  rw [List.takeWhile_append_of_pos all, ends, List.append_nil]

theorem digits_append : digits (digits cs ++ rest) = digits cs :=
  Number.takeWhile_digits_append isDigit_of_mem_digits breaks.digits_eq_nil

theorem signedDigits_append (some : signedDigits cs ≠ []) :
    signedDigits (signedDigits cs ++ rest) = signedDigits cs := by
  obtain ⟨run, digit, same | same | same⟩ := signedDigits_cases some
  · cases split : digits run with
    | nil => exact absurd split digit
    | cons first others =>
      have isDigit : first.isDigit = true :=
        isDigit_of_mem_digits first (split ▸ List.mem_cons_self)
      have read : digits (first :: others ++ rest) = first :: others := split ▸ breaks.digits_append
      rw [same, split, List.cons_append, signedDigits_of_isDigit isDigit]
      exact read
  · rw [same, List.cons_append, signedDigits, if_pos (.inl rfl), breaks.digits_append, if_neg digit]
  · rw [same, List.cons_append, signedDigits, if_pos (.inr rfl), breaks.digits_append, if_neg digit]

theorem exponent_append : exponent (exponent cs ++ rest) = exponent cs := by
  rcases exponent_eq_nil_or_cons cs with none | ⟨mark, others, marked, found, some⟩
  · rw [none]
    exact breaks.exponent_eq_nil
  · rw [some, List.cons_append, exponent, breaks.signedDigits_append found,
      if_pos ⟨marked, found⟩]

theorem takeWhile_exponent_append : (exponent cs ++ rest).takeWhile Char.isDigit = [] := by
  rcases exponent_eq_nil_or_cons cs with none | ⟨mark, _, rfl | rfl, _, some⟩
  · rw [none]
    exact breaks.digits_eq_nil
  · rw [some]
    rfl
  · rw [some]
    rfl

theorem takeWhile_fraction_append {others : List Char} :
    (fraction cs ++ (exponent others ++ rest)).takeWhile Char.isDigit = [] := by
  rcases fraction_eq_nil_or_cons cs with none | ⟨run, _, some⟩
  · rw [none]
    exact breaks.takeWhile_exponent_append
  · rw [some]
    rfl

theorem fraction_append {others : List Char} :
    fraction (fraction cs ++ (exponent others ++ rest)) = fraction cs := by
  rcases fraction_eq_nil_or_cons cs with none | ⟨run, found, some⟩
  · rw [none, List.nil_append]
    rcases exponent_eq_nil_or_cons others with none | ⟨mark, _, rfl | rfl, _, some⟩
    · rw [none]
      exact breaks.fraction_eq_nil
    · rw [some]
      rfl
    · rw [some]
      rfl
  · have read : digits (digits run ++ (exponent others ++ rest)) = digits run :=
      Number.takeWhile_digits_append isDigit_of_mem_digits breaks.takeWhile_exponent_append
    rw [some, List.cons_append, fraction, read, if_neg found]

/-- A number is read to its end. -/
theorem number_append : number (number cs ++ rest) = number cs := by
  let whole := digits cs
  let fractional := fraction (cs.drop whole.length)
  let power := exponent (cs.drop (whole.length + fractional.length))
  have parts : number cs = whole ++ (fractional ++ power) := List.append_assoc _ _ _
  have first : digits (whole ++ (fractional ++ (power ++ rest))) = whole :=
    Number.takeWhile_digits_append isDigit_of_mem_digits breaks.takeWhile_fraction_append
  have second : fraction (fractional ++ (power ++ rest)) = fractional := breaks.fraction_append
  have third : exponent (power ++ rest) = power := breaks.exponent_append
  have split : number cs ++ rest = whole ++ (fractional ++ (power ++ rest)) := by simp [parts]
  have behind : (whole ++ (fractional ++ (power ++ rest))).drop (whole.length + fractional.length) =
      power ++ rest := by
    rw [← List.append_assoc, ← List.length_append, List.drop_left]
  rw [split, parts, number, first, List.drop_left, second, behind, third, List.append_assoc]

end Breaks

end Breaks

section Lexeme

variable {c : Char} {kind : Token.Kind} {cs text rest : List Char}

/-- The characters that are operators and delimiters or start them. -/
def signs : List Char := ['(', ')', ',', ';', '+', '-', '/', '*']

/-- No sign starts a number or a name, and only that of division may start layout. -/
theorem of_mem_signs (isSign : c ∈ signs) :
    c.isDigit = false ∧ c ≠ '.' ∧ Character.startsName c = false ∧
      (c = '/' ∨ Character.isBlank c = false ∧ c ≠ '#') := by
  simp only [signs, List.mem_cons, List.not_mem_nil, or_false] at isSign
  rcases isSign with rfl | rfl | rfl | rfl | rfl | rfl | rfl | rfl <;> decide

theorem lexeme_of_not_mem_signs (noSign : c ∉ signs) :
    lexeme (c :: cs) =
      if c.isDigit = true ∨ fraction (c :: cs) ≠ [] then (.number, number (c :: cs))
      else if Character.startsName c = true then (nameKind (name (c :: cs)), name (c :: cs))
      else (.invalid, [c]) := by
  unfold lexeme
  split <;> simp_all [signs]

theorem eq_point_of_fraction (point : fraction (c :: cs) ≠ []) : c = '.' := by
  unfold fraction at point
  split at point
  · rename_i same
    exact (List.cons_eq_cons.mp same).1
  · exact absurd rfl point

/-- A token that starts like a number is one. -/
theorem lexeme_eq_number (found : c.isDigit = true ∨ fraction (c :: cs) ≠ []) :
    lexeme (c :: cs) = (.number, number (c :: cs)) := by
  have noSign : c ∉ signs := by
    intro isSign
    obtain ⟨noDigit, noPoint, _⟩ := of_mem_signs isSign
    rcases found with digit | point
    · rw [noDigit] at digit
      cases digit
    · exact noPoint (eq_point_of_fraction point)
  rw [lexeme_of_not_mem_signs noSign, if_pos found]

/-- A token that starts like a name is one, or an operator that is written as a name. -/
theorem lexeme_eq_name (starts : Character.startsName c = true) :
    lexeme (c :: cs) = (nameKind (name (c :: cs)), name (c :: cs)) := by
  have noSign : c ∉ signs := by
    intro isSign
    obtain ⟨_, _, noName, _⟩ := of_mem_signs isSign
    rw [noName] at starts
    cases starts
  have noNumber : ¬ (c.isDigit = true ∨ fraction (c :: cs) ≠ []) := by
    rintro (digit | point)
    · rw [not_startsName_of_isDigit digit] at starts
      cases starts
    · rw [eq_point_of_fraction point] at starts
      cases starts
  rw [lexeme_of_not_mem_signs noSign, if_neg noNumber, if_pos starts]

/-- What is read as a number starts like one, whatever follows it. -/
theorem number_starts (found : c.isDigit = true ∨ fraction (c :: cs) ≠ []) :
    ∃ others, number (c :: cs) = c :: others ∧
      (c.isDigit = true ∨ fraction (c :: (others ++ rest)) ≠ []) := by
  by_cases isDigit : c.isDigit = true
  · obtain ⟨d, others, some⟩ := List.exists_cons_of_ne_nil (number_ne_nil found)
    obtain ⟨rfl, _⟩ := List.cons_prefix_cons.mp (some ▸ number_isPrefix (c :: cs))
    exact ⟨others, some, .inl isDigit⟩
  · have point := found.resolve_left isDigit
    obtain rfl := eq_point_of_fraction point
    have digit : digits cs ≠ [] := fun none => point (if_pos none)
    have some : fraction ('.' :: cs) = '.' :: digits cs := if_neg digit
    obtain ⟨first, more, run⟩ := List.exists_cons_of_ne_nil digit
    have firstDigit : first.isDigit = true :=
      isDigit_of_mem_digits first (run ▸ List.mem_cons_self)
    have none : digits ('.' :: cs) = [] := rfl
    obtain ⟨power, parts⟩ : ∃ power, number ('.' :: cs) = '.' :: (first :: (more ++ power)) := by
      rw [number, none, List.nil_append, List.length_nil, List.drop_zero, some, run]
      exact ⟨_, rfl⟩
    refine ⟨_, parts, .inr ?_⟩
    rw [List.cons_append, fraction, if_neg (digits_ne_nil_of_isDigit firstDigit)]
    exact List.cons_ne_nil _ _

/-- A token is scanned again where layout or nothing follows it. -/
theorem lexeme_append (breaks : Breaks rest) : (lexeme cs).1 ≠ .eof → (lexeme cs).1 ≠ .invalid →
    lexeme ((lexeme cs).2 ++ rest) = lexeme cs := by
  fun_cases lexeme cs with
  | case1 => exact fun continues => absurd rfl continues
  | case10 =>
    intro _ _
    cases rest with
    | nil => rfl
    | cons c rest =>
      have noStar := (not_continuesName_of_opensLayout (breaks c rfl)).2.2
      change lexeme ('*' :: c :: rest) = _
      rw [lexeme]
      rintro _ same
      exact noStar (List.cons_eq_cons.mp same).1
  | case11 c cs _ _ _ _ _ _ _ _ _ found =>
    intro _ _
    obtain ⟨others, some, again⟩ : ∃ others, number (c :: cs) = c :: others ∧
        (c.isDigit = true ∨ fraction (c :: (others ++ rest)) ≠ []) := number_starts found
    have read : lexeme (c :: (others ++ rest)) = (.number, number (c :: (others ++ rest))) :=
      lexeme_eq_number again
    rw [← List.cons_append, ← some, breaks.number_append] at read
    exact read
  | case12 c cs _ _ _ _ _ _ _ _ _ other starts =>
    intro _ _
    have run : name (c :: cs) = c :: name cs :=
      List.takeWhile_cons_of_pos (Character.continuesName_of_startsName starts)
    have all : ∀ d ∈ name (c :: cs), Character.continuesName d = true :=
      fun d member => List.mem_takeWhile_imp member
    have read : lexeme (c :: (name cs ++ rest)) = _ := lexeme_eq_name starts
    rw [← List.cons_append, ← run, breaks.name_append all] at read
    exact read
  | case13 => exact fun _ valid => absurd rfl valid
  | case2 | case3 | case4 | case5 | case6 | case7 | case8 | case9 => exact fun _ _ => rfl

end Lexeme

/-- Layout starts no token, but a sign of division may look like it. -/
theorem lexeme_of_opensLayout {c : Char} {cs : List Char} (opens : opensLayout c)
    (noSlash : c ≠ '/') : (lexeme (c :: cs)).1 = .invalid := by
  obtain ⟨ends, noPoint, _⟩ := not_continuesName_of_opensLayout opens
  have noSign : c ∉ signs := by
    intro isSign
    obtain ⟨_, _, _, noLayout⟩ := of_mem_signs isSign
    obtain ⟨noBlank, noHash⟩ := noLayout.resolve_left noSlash
    rcases opens with isBlank | isHash | isSlash
    · rw [noBlank] at isBlank
      cases isBlank
    · exact noHash isHash
    · exact noSlash isSlash
  have noNumber : ¬ (c.isDigit = true ∨ fraction (c :: cs) ≠ []) := by
    rintro (digit | point)
    · rw [continuesName_of_isDigit digit] at ends
      cases ends
    · exact noPoint (eq_point_of_fraction point)
  have noName : ¬ Character.startsName c = true := by
    intro starts
    rw [Character.continuesName_of_startsName starts] at ends
    cases ends
  rw [lexeme_of_not_mem_signs noSign, if_neg noNumber, if_neg noName]

/-- What starts a token is not passed over. -/
theorem skip_lexeme {location : Location} {cs : List Char} (some : cs ≠ [])
    (valid : (lexeme cs).1 ≠ .invalid) (noComment : ∀ more, cs ≠ '/' :: '*' :: more) :
    skip .blank location cs = .ok ⟨cs, location⟩ := by
  cases cs with
  | nil => exact absurd rfl some
  | cons c cs =>
    have noHash : c ≠ '#' := by
      rintro rfl
      exact valid (lexeme_of_opensLayout (.inr (.inl rfl)) (by decide))
    have noBlank : ¬ Character.isBlank c = true := fun isBlank =>
      valid (lexeme_of_opensLayout (.inl isBlank)
        (Character.not_continuesName_of_isBlank isBlank).2.2.2.1)
    rw [skip, if_neg noHash, if_neg noBlank]
    rintro more rfl rfl
    exact noComment more rfl

/-- What the scanner gives as part of an expression it reads so somewhere. -/
theorem exists_lexeme_of_isScanned {token : Token} (scanned : token.IsScanned)
    (continues : token.kind ≠ .eof) (valid : token.kind ≠ .invalid) :
    ∃ cs, (lexeme cs).2 ≠ [] ∧ lexeme cs = (token.kind, token.text.toList) := by
  obtain ⟨scanner, rfl⟩ := scanned
  unfold next at continues valid ⊢
  split
  · rename_i finish failed
    rw [failed] at valid
    exact absurd rfl valid
  · rename_i rest location reached
    rw [reached] at continues valid
    refine ⟨rest, ?_⟩
    have some : rest ≠ [] := by
      rintro rfl
      exact continues rfl
    refine ⟨lexeme_ne_nil some, ?_⟩
    dsimp only at valid ⊢
    rw [lexemeText, if_neg valid, String.toList_ofList]

/-- Tokens written one behind another, with layout behind each of them that may be missing behind
the last one only. -/
inductive Spaced : List Token → List Char → Prop where
  | nil : Spaced [] []
  | cons {tokens : List Token} (layout : IsLayout gap cs) (apart : tokens = [] ∨ gap ≠ [])
      (more : Spaced tokens cs) :
      Spaced (token :: tokens) (token.text.toList ++ (gap ++ cs))

/-- A text that some tokens are written as, with or without layout before them. -/
def IsWriting (tokens : List Token) (text : List Char) : Prop :=
  ∃ gap cs, text = gap ++ cs ∧ IsLayout gap cs ∧ Spaced tokens cs

theorem tokens_eq (scanner : Scanner) :
    scanner.tokens =
      if scanner.next.1.kind = .eof then [scanner.next.1]
      else scanner.next.1 :: scanner.next.2.tokens := by
  rw [tokens]
  split
  rename_i step
  rw [step, dite_eq_ite]

/-- Layout before the next token changes nothing but its place. -/
theorem tokens_layout {gap cs : List Char} (layout : IsLayout gap cs) (location : Location) :
    (Scanner.mk (gap ++ cs) location).tokens = (Scanner.mk cs (location.afterAll gap)).tokens := by
  have same : (Scanner.mk (gap ++ cs) location).next =
      (Scanner.mk cs (location.afterAll gap)).next := by
    unfold next
    rw [skip_layout layout]
  rw [tokens_eq (Scanner.mk (gap ++ cs) location), same, ← tokens_eq]

theorem Spaced.breaks {tokens : List Token} {gap cs : List Char} (layout : IsLayout gap cs)
    (apart : tokens = [] ∨ gap ≠ []) (more : Spaced tokens cs) : Breaks (gap ++ cs) := by
  intro c starts
  cases gap with
  | nil =>
    obtain rfl := apart.resolve_right (fun some => some rfl)
    cases more
    cases starts
  | cons d gap =>
    cases starts
    exact opensLayout_of_isLayout layout

/-- The induction follows the tokens; what is behind a token is scanned as it would be alone. -/
theorem symbols_of_spaced {tokens : List Token} {cs : List Char} (spaced : Spaced tokens cs)
    (scanned : ∀ token ∈ tokens, token.IsScanned ∧ token.kind ≠ .eof ∧ token.kind ≠ .invalid)
    (location : Location) :
    (Scanner.mk cs location).tokens.map Token.symbol =
      tokens.map Token.symbol ++ [(.eof, "")] := by
  induction spaced generalizing location with
  | nil =>
    rw [tokens_eq]
    rfl
  | @cons gap cs token tokens layout apart more ih =>
    obtain ⟨⟨known, continues, valid⟩, others⟩ := List.forall_mem_cons.mp scanned
    obtain ⟨source, some, read⟩ := exists_lexeme_of_isScanned known continues valid
    rw [read] at some
    have breaks := more.breaks layout apart
    have again : lexeme (token.text.toList ++ (gap ++ cs)) = (token.kind, token.text.toList) := by
      have same : (lexeme source).1 ≠ .eof → (lexeme source).1 ≠ .invalid →
          lexeme ((lexeme source).2 ++ (gap ++ cs)) = lexeme source := lexeme_append breaks
      rw [read] at same
      exact same continues valid
    have noComment (rest : List Char) : token.text.toList ++ (gap ++ cs) ≠ '/' :: '*' :: rest := by
      intro same
      rw [same] at again
      have text : ['/'] = token.text.toList := congrArg Prod.snd again
      rw [← text] at same
      have behind : gap ++ cs = '*' :: rest := (List.cons_eq_cons.mp same).2
      have star : '*' ∈ (gap ++ cs).head? := behind ▸ rfl
      exact (not_continuesName_of_opensLayout (breaks '*' star)).2.2 rfl
    have reached : skip .blank location (token.text.toList ++ (gap ++ cs)) =
        .ok ⟨token.text.toList ++ (gap ++ cs), location⟩ :=
      skip_lexeme (List.append_ne_nil_of_left_ne_nil some _) (by rw [again]; exact valid) noComment
    have step : (Scanner.mk (token.text.toList ++ (gap ++ cs)) location).next =
        (⟨token.kind, token.text, location⟩,
          ⟨gap ++ cs, location.afterAll token.text.toList⟩) := by
      unfold next
      rw [reached]
      dsimp only
      rw [again]
      dsimp only
      rw [lexemeText, if_neg valid, String.ofList_toList, List.drop_left]
    rw [tokens_eq, step, if_neg continues, List.map_cons, tokens_layout layout, ih others]
    rfl

/-- Tokens survive any layout that they are written with. -/
theorem tokenize_writing {source text : String} {tokens : List Token}
    (h : tokenize source = .ok tokens) (writing : IsWriting tokens.dropLast text.toList) :
    ∃ again, tokenize text = .ok again ∧ again.map Token.symbol = tokens.map Token.symbol := by
  have scanned := isScanned_of_tokenize h
  obtain ⟨rfl, valid⟩ := tokenize_eq_ok_iff.mp h
  have divides : Divides [] source.toList (ofString source).tokens :=
    divides_tokens (ofString source) rfl
  obtain ⟨others, split, _, continues⟩ := divides.ends
  rw [split] at scanned valid writing ⊢
  obtain ⟨gap, cs, parts, layout, spaced⟩ := writing
  rw [List.dropLast_concat] at spaced
  have known : ∀ token ∈ others, token.IsScanned ∧ token.kind ≠ .eof ∧ token.kind ≠ .invalid :=
    fun token member =>
      have inAll := List.mem_append_left _ member
      ⟨scanned token inAll, continues token member, valid token inAll⟩
  have symbols : (ofString text).tokens.map Token.symbol =
      others.map Token.symbol ++ [(.eof, "")] := by
    rw [ofString, parts, tokens_layout layout]
    exact symbols_of_spaced spaced known _
  refine ⟨(ofString text).tokens, tokenize_eq_ok_iff.mpr ⟨rfl, ?_⟩, ?_⟩
  · intro token member invalid
    have inSymbols := List.mem_map_of_mem (f := Token.symbol) member
    rw [symbols, List.mem_append, List.mem_singleton] at inSymbols
    rcases inSymbols with inOthers | ends
    · obtain ⟨other, present, same⟩ := List.mem_map.mp inOthers
      exact (known other present).2.2 ((congrArg Prod.fst same).trans invalid)
    · have isEnd : token.kind = .eof := congrArg Prod.fst ends
      rw [invalid] at isEnd
      cases isEnd
  · rw [symbols, List.map_append]
    rfl

/-- A quotient survives a block comment before its sign and a line comment behind it. -/
theorem exists_tokens_of_commented_quotient :
    ∃ tokens again, tokenize "t/2e1" = .ok tokens ∧
      IsWriting tokens.dropLast "t/*:*//#1\n2e1".toList ∧
      tokenize "t/*:*//#1\n2e1" = .ok again ∧
      again.map Token.symbol = tokens.map Token.symbol := by
  let tokens : List Token :=
    [⟨.identifier, "t", .start⟩, ⟨.over, "/", ⟨1, 1, 2⟩⟩, ⟨.number, "2e1", ⟨2, 1, 3⟩⟩,
      .eof ⟨5, 1, 6⟩]
  have scanned : tokenize "t/2e1" = .ok tokens := Except.toOption_eq_some.mp (by decide +kernel)
  have parts : "t/*:*//#1\n2e1".toList =
      "t".toList ++ (['/', '*', ':', '*', '/'] ++
        ("/".toList ++ (['#', '1', '\n'] ++ ("2e1".toList ++ ([] ++ []))))) := by
    decide +kernel
  have block (rest : List Char) : IsComment ('/' :: '*' :: ([':'] ++ ['*', '/'])) rest :=
    .block (by decide)
  have line (rest : List Char) : IsComment ('#' :: (['1'] ++ ['\n'])) rest := .line (by decide)
  have writing : IsWriting tokens.dropLast "t/*:*//#1\n2e1".toList := by
    refine ⟨[], _, parts, .nil, .cons (.comment (block _) .nil) (.inr nofun) ?_⟩
    exact .cons (.comment (line _) .nil) (.inr nofun) (.cons .nil (.inl rfl) .nil)
  obtain ⟨again, scannedAgain, same⟩ := tokenize_writing scanned writing
  exact ⟨tokens, again, scanned, writing, scannedAgain, same⟩

end Scanner

end Dimensional
