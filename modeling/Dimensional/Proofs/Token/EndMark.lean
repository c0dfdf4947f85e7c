import Dimensional.Proofs.Parser.Steps
import Dimensional.Proofs.Token.Numeral
import Mathlib.Data.String.Basic

/-! The mark of the end that is added to tokens without one. It stands as many bytes behind the start
of the last token as that has, where the scanner counts characters. -/

namespace Dimensional

namespace Location

variable {location : Location} {cs : List Char}

theorem position_afterAll : (location.afterAll cs).position = location.position + cs.length := by
  induction cs generalizing location with
  | nil => rfl
  | cons c cs ih =>
    have step : (location.after c).position = location.position + 1 := by
      unfold after
      split <;> rfl
    change ((location.after c).afterAll cs).position = _
    rw [ih, step, List.length_cons]
    omega

theorem line_afterAll : (location.afterAll cs).line = location.line + cs.count '\n' := by
  induction cs generalizing location with
  | nil => rfl
  | cons c cs ih =>
    have step : (location.after c).line = location.line + if c == '\n' then 1 else 0 := by
      unfold after
      by_cases isFeed : c = '\n'
      · simp [isFeed]
      · simp [isFeed]
    change ((location.after c).afterAll cs).line = _
    rw [ih, step, List.count_cons]
    omega

/-- Within a line the column goes with the position. -/
theorem afterAll_of_inLine (inLine : '\n' ∉ cs) : location.afterAll cs =
    ⟨location.position + cs.length, location.line, location.column + cs.length⟩ := by
  induction cs generalizing location with
  | nil => rfl
  | cons c cs ih =>
    obtain ⟨other, others⟩ := not_or.mp (List.mem_cons.not.mp inLine)
    change (location.after c).afterAll cs = _
    rw [ih others, after, if_neg (Ne.symm other), List.length_cons, Nat.add_comm cs.length 1,
      ← Nat.add_assoc, ← Nat.add_assoc]

end Location

section Bytes

variable {cs : List Char}

theorem utf8Size_eq_one_iff {c : Char} : c.utf8Size = 1 ↔ c.toNat < 0x80 := by
  rw [Char.utf8Size_eq_one_iff, UInt32.le_iff_toNat_le]
  exact Nat.lt_succ_iff.symm

theorem length_le_utf8Len : cs.length ≤ String.utf8Len cs := by
  induction cs with
  | nil => exact Nat.le_refl _
  | cons c cs ih =>
    have positive := c.utf8Size_pos
    rw [String.utf8Len, List.length_cons]
    omega

/-- A text has as many bytes as characters if these are among the first 128, and only then. -/
theorem utf8Len_eq_length_iff :
    String.utf8Len cs = cs.length ↔ ∀ c ∈ cs, c.toNat < 0x80 := by
  induction cs with
  | nil => exact ⟨nofun, fun _ => rfl⟩
  | cons c cs ih =>
    have positive := c.utf8Size_pos
    have others : cs.length ≤ String.utf8Len cs := length_le_utf8Len
    rw [List.forall_mem_cons, ← ih, ← utf8Size_eq_one_iff, String.utf8Len, List.length_cons]
    omega

theorem length_le_utf8ByteSize (text : String) : text.length ≤ text.utf8ByteSize := by
  rw [← String.utf8Len_toList, ← String.length_toList]
  exact length_le_utf8Len

theorem utf8ByteSize_eq_length_iff {text : String} :
    text.utf8ByteSize = text.length ↔ ∀ c ∈ text.toList, c.toNat < 0x80 := by
  rw [← String.utf8Len_toList, ← String.length_toList]
  exact utf8Len_eq_length_iff

end Bytes

namespace Token

/-- Some tokens with a mark of the end behind them, which is added where the last one is none. -/
def closed (tokens : List Token) : List Token :=
  if tokens.getLast?.any (·.kind = .eof) then tokens
  else tokens ++ [.eof ((tokens.getLast?.map finish).getD .start)]

variable {token : Token} {beyond : List Char}

/-- How many bytes more than characters the text of a token has. -/
def surplus (token : Token) : Nat := token.text.utf8ByteSize - token.text.length

/-- The place behind the characters of a token that stands in one line. -/
def behind (token : Token) : Location :=
  ⟨token.location.position + token.text.length, token.location.line,
    token.location.column + token.text.length⟩

theorem finish_eq (token : Token) : token.finish =
    ⟨token.behind.position + token.surplus, token.behind.line,
      token.behind.column + token.surplus⟩ := by
  have le := length_le_utf8ByteSize token.text
  unfold finish behind surplus
  simp only [Location.mk.injEq, true_and]
  omega

theorem surplus_eq_zero_iff : token.surplus = 0 ↔ ∀ c ∈ token.text.toList, c.toNat < 0x80 := by
  have le := length_le_utf8ByteSize token.text
  rw [← utf8ByteSize_eq_length_iff, surplus]
  omega

/-- Characters of the same line make up for the bytes that a token has more than characters. -/
theorem finish_eq_afterAll_iff :
    token.finish = token.behind.afterAll beyond ↔
      '\n' ∉ beyond ∧ beyond.length = token.surplus := by
  rw [finish_eq]
  constructor
  · intro same
    have line := congrArg Location.line same
    have position := congrArg Location.position same
    rw [Location.line_afterAll] at line
    rw [Location.position_afterAll] at position
    refine ⟨List.count_eq_zero.mp ?_, ?_⟩
    · dsimp only at line
      omega
    · dsimp only at position
      omega
  · rintro ⟨inLine, width⟩
    rw [Location.afterAll_of_inLine inLine, width]

end Token

namespace Scanner

variable {cs : List Char}

theorem ascii_of_all (all : cs.all (·.toNat < 0x80) = true) : ∀ c ∈ cs, c.toNat < 0x80 :=
  fun c member => of_decide_eq_true (List.all_eq_true.mp all c member)

/-- No token but a name goes beyond the first 128 characters. -/
theorem lexeme_ascii (cs : List Char) : (lexeme cs).1 ≠ .invalid → (lexeme cs).1 ≠ .identifier →
    ∀ c ∈ (lexeme cs).2, c.toNat < 0x80 := by
  fun_cases lexeme cs with
  | case1 => exact fun _ _ _ member => absurd member List.not_mem_nil
  | case11 c cs _ _ _ _ _ _ _ _ _ found =>
    intro _ _ d member
    rcases mem_of_isNumeral (isNumeral_number found) member with isDigit | isSign
    · exact toNat_lt_of_isDigit isDigit
    · exact ascii_of_all (by decide) d isSign
  | case12 =>
    intro _ unnamed
    unfold nameKind at unnamed
    split at unnamed
    · rename_i isDot
      rw [isDot]
      exact ascii_of_all (by decide +kernel)
    · split at unnamed
      · rename_i isCross
        rw [isCross]
        exact ascii_of_all (by decide +kernel)
      · exact absurd rfl unnamed
  | case13 => exact fun valid => absurd rfl valid
  | case2 | case3 | case4 | case5 | case6 | case7 | case8 | case9 | case10 =>
    exact fun _ _ => ascii_of_all (by decide)

/-- No token goes on behind its line. -/
theorem lexeme_inLine (cs : List Char) : (lexeme cs).1 ≠ .invalid → '\n' ∉ (lexeme cs).2 := by
  fun_cases lexeme cs with
  | case1 => exact fun _ => List.not_mem_nil
  | case11 c cs _ _ _ _ _ _ _ _ _ found =>
    intro _ member
    have digit := mem_of_isNumeral (isNumeral_number found) member
    revert digit
    decide
  | case12 =>
    intro _ member
    have continues : Character.continuesName '\n' = true := List.mem_takeWhile_imp member
    revert continues
    decide
  | case13 => exact fun valid => absurd rfl valid
  | case2 | case3 | case4 | case5 | case6 | case7 | case8 | case9 | case10 =>
    exact fun _ => by decide

/-- The place behind a text, reckoned from a token in it. -/
theorem Stands.behind_eq {token : Token} {gap beyond : List Char} (stands : Stands token gap beyond)
    (valid : token.kind ≠ .invalid) :
    Location.behind (gap ++ (token.text.toList ++ beyond)) = token.behind.afterAll beyond := by
  have inLine : '\n' ∉ token.text.toList := by
    have inside := lexeme_inLine (token.text.toList ++ beyond)
    rw [stands.read] at inside
    exact inside valid
  rw [← List.append_assoc, Location.behind_append, Location.behind_append, ← stands.place,
    Location.afterAll_of_inLine inLine, String.length_toList]
  rfl

/-- The tokens of a source before the mark of its end. -/
theorem tokenize_dropLast {source : String} {tokens : List Token}
    (scanned : tokenize source = .ok tokens) :
    tokens = tokens.dropLast ++ [.eof (.behind source.toList)] ∧
      ∀ token ∈ tokens.dropLast,
        token ∈ (ofString source).tokens ∧ token.kind ≠ .eof ∧ token.kind ≠ .invalid := by
  obtain ⟨rfl, valid⟩ := tokenize_eq_ok_iff.mp scanned
  obtain ⟨others, whole, _, continues⟩ := (divides_ofString source).ends
  have front : (ofString source).tokens.dropLast = others := by rw [whole, List.dropLast_concat]
  rw [front]
  refine ⟨whole, fun token member => ?_⟩
  have inAll : token ∈ (ofString source).tokens := whole ▸ List.mem_append_left _ member
  exact ⟨inAll, continues token member, valid token inAll⟩

end Scanner

namespace Cursor

open Scanner

variable {tokens others : List Token} {last : Token} {source : String}

/-- A cursor that is made of tokens has all of them before it. -/
theorem tokens_ofTokens (tokens : List Token) : (ofTokens tokens).tokens = Token.closed tokens := by
  unfold ofTokens Token.closed
  split
  · rename_i none
    rw [List.getLast?_eq_none_iff.mp none]
    rfl
  · rename_i last found
    rw [found]
    by_cases ends : last.kind = .eof
    · obtain ⟨front, rfl⟩ := List.getLast?_eq_some_iff.mp found
      simp [Cursor.tokens, ends]
    · simp [Cursor.tokens, ends]

/-- Tokens without a mark of the end get one. -/
theorem tokens_ofTokens_of_last (ends : tokens.getLast? = some last) (continues : last.kind ≠ .eof) :
    (ofTokens tokens).tokens = tokens ++ [.eof last.finish] := by
  rw [tokens_ofTokens, Token.closed, ends]
  exact if_neg (by simpa using continues)

theorem append_eof_inj {here there : Location} :
    others ++ [.eof here] = others ++ [Token.eof there] ↔ here = there := by
  simp [Token.eof]

/-- What is supplied where the mark of the end has been taken away from the tokens of a source. It is
the scanner's exactly if the text behind the last token stays on its line and makes up for the bytes
that the token has more than characters. Where there is no such text, the mark stands that many
positions and columns too far: it is right behind all tokens but names, and behind names of the first
128 characters. -/
theorem supplied_end_exact (scanned : tokenize source = .ok tokens)
    (ends : tokens.dropLast.getLast? = some last) :
    let others := tokens.dropLast
    let stream := (ofTokens others).tokens
    let beyond := source.toList.drop (last.location.position + last.text.length)
    ∃ finish, tokens = others ++ [.eof finish] ∧ stream = others ++ [.eof last.finish] ∧
      (stream = tokens ↔ '\n' ∉ beyond ∧ beyond.length = last.surplus) ∧
      (beyond = [] →
        last.finish =
          ⟨finish.position + last.surplus, finish.line, finish.column + last.surplus⟩ ∧
        (stream = tokens ↔ ∀ c ∈ last.text.toList, c.toNat < 0x80) ∧
        (last.kind ≠ .identifier → stream = tokens)) := by
  intro others stream beyond
  obtain ⟨whole, members⟩ := tokenize_dropLast scanned
  obtain ⟨member, continues, valid⟩ := members last (List.mem_of_getLast? ends)
  obtain ⟨gap, rest, parts, stands⟩ := exists_stands member valid
  have behind : beyond = rest := by
    unfold beyond
    rw [parts, stands.drop_behind_eq]
  have finish : Location.behind source.toList = last.behind.afterAll beyond := by
    rw [parts, behind, stands.behind_eq valid]
  have supplied : stream = others ++ [.eof last.finish] := tokens_ofTokens_of_last ends continues
  have right : stream = tokens ↔ '\n' ∉ beyond ∧ beyond.length = last.surplus := by
    rw [supplied, whole, append_eof_inj, finish]
    exact Token.finish_eq_afterAll_iff
  refine ⟨_, whole, supplied, right, fun nothing => ?_⟩
  rw [nothing] at right finish
  have ascii : stream = tokens ↔ ∀ c ∈ last.text.toList, c.toNat < 0x80 := by
    rw [right, ← Token.surplus_eq_zero_iff]
    exact ⟨fun width => width.2.symm, fun none => ⟨List.not_mem_nil, none.symm⟩⟩
  refine ⟨?_, ascii, fun unnamed => ascii.mpr ?_⟩
  · rw [finish]
    exact last.finish_eq
  · have all := lexeme_ascii (last.text.toList ++ rest)
    rw [stands.read] at all
    exact all valid unnamed

/-- The mark of the end is supplied on the last of two lines. -/
theorem exists_supplied_end : ∃ tokens last, tokenize "2 kg *\n cross" = .ok tokens ∧
    tokens.dropLast.getLast? = some last ∧ last.kind ≠ .identifier ∧
    (ofTokens tokens.dropLast).tokens = tokens := by
  let last : Token := ⟨.cross, "cross", ⟨8, 2, 2⟩⟩
  let tokens : List Token := [⟨.number, "2", .start⟩, ⟨.identifier, "kg", ⟨2, 1, 3⟩⟩,
    ⟨.times, "*", ⟨5, 1, 6⟩⟩, last, .eof ⟨13, 2, 7⟩]
  have scanned : tokenize "2 kg *\n cross" = .ok tokens :=
    Except.toOption_eq_some.mp (by decide +kernel)
  have ends : tokens.dropLast.getLast? = some last := rfl
  obtain ⟨_, _, _, _, atEnd⟩ := supplied_end_exact scanned ends
  have unnamed : last.kind ≠ .identifier := nofun
  exact ⟨tokens, last, scanned, ends, unnamed, (atEnd (by decide +kernel)).2.2 unnamed⟩

/-- The mark that is supplied behind a letter of two bytes stands one column too far. -/
theorem exists_end_misplaced :
    ∃ tokens last, tokenize "é" = .ok tokens ∧ tokens.dropLast.getLast? = some last ∧
      "é".length = last.location.position + last.text.length ∧
      (ofTokens tokens.dropLast).tokens ≠ tokens := by
  let name : Token := ⟨.identifier, "é", .start⟩
  have scanned : tokenize "é" = .ok [name, .eof ⟨1, 1, 2⟩] :=
    Except.toOption_eq_some.mp (by decide +kernel)
  exact ⟨_, name, scanned, rfl, by decide +kernel, by decide +kernel⟩

end Cursor

end Dimensional
