import Dimensional.Proofs.Token.Layout

/-! A source is divided into tokens and the layout between them: nothing is lost, every token knows
its place, and behind the last one the end of the input is found again and again. -/

namespace Dimensional

/-- A token ends where a later one starts or before. Only at the end of the input can there be two
tokens, the last of them the mark of the end. -/
structure Token.Precedes (left right : Token) : Prop where
  apart : left.kind ≠ .invalid →
    left.location.position + left.text.length ≤ right.location.position
  rises : right.kind ≠ .eof → left.location.position < right.location.position

/-- The character at a position is one of a token's. -/
def Token.Covers (token : Token) (position : Nat) : Prop :=
  token.location.position ≤ position ∧ position < token.location.position + token.text.length

instance (token : Token) (position : Nat) : Decidable (token.Covers position) :=
  inferInstanceAs (Decidable (_ ∧ _))

namespace Scanner

theorem isPrefix_append_of_drop {first second cs : List Char} (starts : first <+: cs)
    (goesOn : second <+: cs.drop first.length) : first ++ second <+: cs := by
  rw [← List.prefix_iff_eq_append.mp starts, List.prefix_append_right_inj]
  exact goesOn

theorem digits_isPrefix (cs : List Char) : digits cs <+: cs := List.takeWhile_prefix _

theorem fraction_isPrefix (cs : List Char) : fraction cs <+: cs := by
  unfold fraction
  split
  · split
    · exact List.nil_prefix
    · exact List.cons_prefix_cons.mpr ⟨rfl, digits_isPrefix _⟩
  · exact List.nil_prefix

theorem signedDigits_isPrefix (cs : List Char) : signedDigits cs <+: cs := by
  unfold signedDigits
  split
  · exact List.nil_prefix
  · split
    · split
      · exact List.nil_prefix
      · exact List.cons_prefix_cons.mpr ⟨rfl, digits_isPrefix _⟩
    · exact digits_isPrefix _

theorem exponent_isPrefix (cs : List Char) : exponent cs <+: cs := by
  unfold exponent
  split
  · exact List.nil_prefix
  · split
    · exact List.cons_prefix_cons.mpr ⟨rfl, signedDigits_isPrefix _⟩
    · exact List.nil_prefix

theorem number_isPrefix (cs : List Char) : number cs <+: cs := by
  unfold number
  refine isPrefix_append_of_drop ?_ ?_
  · exact isPrefix_append_of_drop (digits_isPrefix cs) (fraction_isPrefix _)
  · rw [List.length_append]
    exact exponent_isPrefix _

theorem nameKind_ne {name : List Char} : nameKind name ≠ .eof ∧ nameKind name ≠ .invalid := by
  unfold nameKind
  split
  · exact ⟨nofun, nofun⟩
  · split <;> exact ⟨nofun, nofun⟩

/-- The characters of a token stand first. -/
theorem lexeme_isPrefix (cs : List Char) : (lexeme cs).2 <+: cs := by
  fun_cases lexeme cs with
  | case1 => exact List.nil_prefix
  | case9 => exact List.prefix_append ['*', '*'] _
  | case11 => exact number_isPrefix _
  | case12 => exact List.takeWhile_prefix _
  | case2 | case3 | case4 | case5 | case6 | case7 | case8 | case10 | case13 =>
    exact List.prefix_append [_] _

/-- Only the end of the input is marked as such, and what is invalid is one character. -/
theorem lexeme_kind {cs : List Char} (some : cs ≠ []) :
    (lexeme cs).1 ≠ .eof ∧ ((lexeme cs).1 = .invalid → ∃ c, (lexeme cs).2 = [c]) := by
  fun_cases lexeme cs with
  | case1 => exact absurd rfl some
  | case12 => exact ⟨nameKind_ne.1, fun invalid => absurd invalid nameKind_ne.2⟩
  | case13 c => exact ⟨nofun, fun _ => ⟨c, rfl⟩⟩
  | case2 | case3 | case4 | case5 | case6 | case7 | case8 | case9 | case10 | case11 =>
    exact ⟨nofun, nofun⟩

/-- What a call of the scanner reads where some characters stand before and others ahead: a token,
the characters that it passes and those that are left. -/
inductive Reads (before : List Char) :
    (ahead : List Char) → Token → (passed beyond : List Char) → Prop where
  | finish (layout : IsLayout gap []) : Reads before gap (.eof (.behind (before ++ gap))) gap []
  | token (layout : IsLayout gap (cs ++ beyond)) (some : cs ≠ []) (continues : kind ≠ .eof)
      (valid : kind ≠ .invalid) :
      Reads before (gap ++ cs ++ beyond) ⟨kind, String.ofList cs, .behind (before ++ gap)⟩
        (gap ++ cs) beyond
  | unexpected (layout : IsLayout gap (c :: beyond)) :
      Reads before (gap ++ [c] ++ beyond)
        ⟨.invalid, "Unexpected character: " ++ String.ofList [c], .behind (before ++ gap)⟩
        (gap ++ [c]) beyond
  | unterminated (some : ahead ≠ []) :
      Reads before ahead ⟨.invalid, "Unterminated block comment", .behind (before ++ ahead)⟩
        ahead []

/-- A call keeps the place of the scanner. -/
theorem reads_next {before : List Char} {scanner : Scanner}
    (place : scanner.location = .behind before) :
    ∃ passed, scanner.rest = passed ++ scanner.next.2.rest ∧
      scanner.next.2.location = .behind (before ++ passed) ∧
      Reads before scanner.rest scanner.next.1 passed scanner.next.2.rest := by
  obtain ⟨ahead, location⟩ := scanner
  obtain rfl : location = .behind before := place
  unfold next
  dsimp only
  split
  · rename_i finish failed
    obtain rfl := finish_of_skip failed
    rw [← Location.behind_append]
    exact ⟨ahead, by simp, rfl, .unterminated (ne_nil_of_skip_error failed)⟩
  · rename_i rest location reached
    obtain ⟨gap, rfl, rfl, closes⟩ := closes_of_skip reached
    dsimp only at closes ⊢
    obtain ⟨beyond, parts⟩ := lexeme_isPrefix rest
    rw [← Location.behind_append, ← Location.behind_append]
    cases found : lexeme rest with
    | mk kind cs =>
      rw [found] at parts
      dsimp only at parts ⊢
      subst parts
      rw [List.drop_left]
      by_cases finished : cs ++ beyond = []
      · obtain ⟨rfl, rfl⟩ := List.append_eq_nil_iff.mp finished
        cases found
        refine ⟨gap, by simp, by simp, ?_⟩
        have finish : Reads before gap _ gap [] := .finish closes.isLayout
        simpa [lexemeText, Token.eof] using finish
      · have some := lexeme_ne_nil finished
        obtain ⟨continues, single⟩ := lexeme_kind finished
        rw [found] at some continues single
        refine ⟨gap ++ cs, by simp, by simp, ?_⟩
        rw [← List.append_assoc]
        by_cases valid : kind = .invalid
        · obtain ⟨c, rfl⟩ := single valid
          subst valid
          exact .unexpected closes.isLayout
        · rw [lexemeText, if_neg valid]
          exact .token closes.isLayout some continues valid

namespace Reads

variable {before ahead passed beyond : List Char} {token : Token}

/-- The token stands behind some of the characters that are passed. -/
theorem location_eq (reads : Reads before ahead token passed beyond) :
    ∃ gap, gap <+: passed ∧ token.location = .behind (before ++ gap) := by
  cases reads with
  | finish | unterminated => exact ⟨_, List.prefix_refl _, rfl⟩
  | token | unexpected => exact ⟨_, List.prefix_append _ _, rfl⟩

theorem ahead_eq (reads : Reads before ahead token passed beyond) : ahead = passed ++ beyond := by
  cases reads with
  | token | unexpected => rfl
  | finish | unterminated => exact (List.append_nil _).symm

/-- Every token but the mark of the end passes a character. -/
theorem passed_ne_nil (reads : Reads before ahead token passed beyond)
    (continues : token.kind ≠ .eof) : passed ≠ [] := by
  cases reads with
  | finish => exact absurd rfl continues
  | token _ some => simp [some]
  | unexpected => simp
  | unterminated some => exact some

/-- What is passed ends with the token. -/
theorem finish_eq (reads : Reads before ahead token passed beyond) (valid : token.kind ≠ .invalid) :
    token.location.position + token.text.length = (before ++ passed).length := by
  cases reads with
  | finish => rfl
  | token => simp [Location.behind, Nat.add_assoc]
  | unexpected | unterminated => exact absurd rfl valid

/-- A token starts before the end of what is passed, unless the input ends with it. -/
theorem start_lt (reads : Reads before ahead token passed beyond) (more : beyond ≠ []) :
    token.location.position < (before ++ passed).length := by
  cases reads with
  | finish | unterminated => exact absurd rfl more
  | token _ some =>
    have positive := List.length_pos_iff.mpr some
    simp only [Location.behind, List.length_append]
    omega
  | unexpected => simp [Location.behind]

/-- A character that is passed but is none of the token's is blank or part of a comment before the
token. -/
theorem isBlank_or_commentSpans (reads : Reads before ahead token passed beyond)
    (valid : token.kind ≠ .invalid) {i : Nat} {c : Char} (found : passed[i]? = some c)
    (uncovered : ¬ token.Covers (before.length + i)) :
    Character.isBlank c = true ∨ ∃ start finish, CommentSpans (before ++ ahead) start finish ∧
      before.length ≤ start ∧ start ≤ before.length + i ∧ before.length + i < finish ∧
      finish ≤ token.location.position := by
  obtain ⟨gap, text, rfl, rfl, layout, width, place⟩ : ∃ gap text, passed = gap ++ text ∧
      ahead = gap ++ (text ++ beyond) ∧ IsLayout gap (text ++ beyond) ∧
      token.text.length = text.length ∧ token.location = .behind (before ++ gap) := by
    cases reads with
    | finish layout => exact ⟨_, [], by simp, by simp, layout, rfl, rfl⟩
    | @token gap cs _ _ layout => exact ⟨gap, cs, rfl, by simp, layout, by simp, rfl⟩
    | unexpected | unterminated => exact absurd rfl valid
  have starts : token.location.position = before.length + gap.length := by
    simp [place, Location.behind]
  have inGap : i < gap.length := by
    obtain ⟨short, _⟩ := List.getElem?_eq_some_iff.mp found
    rw [List.length_append] at short
    rw [Token.Covers, starts, width] at uncovered
    omega
  rw [List.getElem?_append_left inGap] at found
  refine (layout.isBlank_or_commentSpans found).imp_right ?_
  rintro ⟨start, finish, spans, opens, closes, inside⟩
  exact ⟨_, _, spans.append before, by omega, by omega, by omega, by omega⟩

end Reads

/-- The tokens that calls of the scanner read one after another up to the end of the input. -/
inductive Divides : (before ahead : List Char) → List Token → Prop where
  | last (reads : Reads before ahead token passed beyond) (ends : token.kind = .eof) :
      Divides before ahead [token]
  | next (reads : Reads before ahead token passed beyond) (continues : token.kind ≠ .eof)
      (more : Divides (before ++ passed) beyond others) : Divides before ahead (token :: others)

theorem divides_tokens {before : List Char} (scanner : Scanner)
    (place : scanner.location = .behind before) : Divides before scanner.rest scanner.tokens := by
  fun_induction tokens scanner generalizing before with
  | case1 scanner token left step ends =>
    obtain ⟨passed, _, _, reads⟩ := reads_next place
    rw [step] at reads
    exact .last reads ends
  | case2 scanner token left step continues ih =>
    obtain ⟨passed, _, later, reads⟩ := reads_next place
    rw [step] at reads later
    exact .next reads continues (ih later)

theorem divides_ofString (source : String) :
    Divides [] source.toList (ofString source).tokens :=
  divides_tokens (ofString source) rfl

/-- The token that a call gives, the calls counted from 0. -/
def call (scanner : Scanner) : Nat → Token
  | 0 => scanner.next.1
  | k + 1 => scanner.next.2.call k

namespace Divides

variable {before ahead : List Char} {tokens : List Token} {token : Token}

/-- The end of the input is marked once, behind all of it. -/
theorem ends (divides : Divides before ahead tokens) :
    ∃ others, tokens = others ++ [.eof (.behind (before ++ ahead))] ∧
      others.length ≤ ahead.length ∧ ∀ token ∈ others, token.kind ≠ .eof := by
  induction divides with
  | last reads ends =>
    cases reads with
    | finish => exact ⟨[], rfl, Nat.zero_le _, nofun⟩
    | token _ _ continues => exact absurd ends continues
    | unexpected => cases ends
    | unterminated => cases ends
  | next reads continues _ ih =>
    obtain ⟨others, rfl, few, inner⟩ := ih
    have positive := List.length_pos_iff.mpr (reads.passed_ne_nil continues)
    rw [reads.ahead_eq, ← List.append_assoc]
    refine ⟨_ :: others, rfl, ?_, List.forall_mem_cons.mpr ⟨continues, inner⟩⟩
    rw [List.length_cons, List.length_append]
    omega

/-- Every token knows its place. -/
theorem located (divides : Divides before ahead tokens) (member : token ∈ tokens) :
    ∃ gap, gap <+: ahead ∧ token.location = .behind (before ++ gap) := by
  induction divides with
  | last reads =>
    obtain rfl := List.mem_singleton.mp member
    obtain ⟨gap, starts, place⟩ := reads.location_eq
    exact ⟨gap, reads.ahead_eq ▸ starts.trans (List.prefix_append _ _), place⟩
  | next reads _ _ ih =>
    rw [reads.ahead_eq]
    rcases List.mem_cons.mp member with rfl | later
    · obtain ⟨gap, starts, place⟩ := reads.location_eq
      exact ⟨gap, starts.trans (List.prefix_append _ _), place⟩
    · obtain ⟨gap, starts, place⟩ := ih later
      rw [List.append_assoc] at place
      exact ⟨_, (List.prefix_append_right_inj _).mpr starts, place⟩

theorem length_le_position (divides : Divides before ahead tokens) (member : token ∈ tokens) :
    before.length ≤ token.location.position := by
  obtain ⟨gap, _, place⟩ := divides.located member
  simp [place, Location.behind]

/-- A token that is part of an expression consists of the characters at its place. -/
theorem text (divides : Divides before ahead tokens) (member : token ∈ tokens)
    (continues : token.kind ≠ .eof) (valid : token.kind ≠ .invalid) :
    token.text.toList ≠ [] ∧
      token.text.toList <+: (before ++ ahead).drop token.location.position := by
  induction divides with
  | last reads ends =>
    obtain rfl := List.mem_singleton.mp member
    exact absurd ends continues
  | next reads _ _ ih =>
    rcases List.mem_cons.mp member with rfl | later
    · cases reads with
      | finish => exact absurd rfl continues
      | unexpected | unterminated => exact absurd rfl valid
      | token _ some =>
        refine ⟨by simpa using some, ?_⟩
        rw [List.append_assoc, ← List.append_assoc, Location.behind, List.drop_left,
          String.toList_ofList]
        exact List.prefix_append _ _
    · rw [reads.ahead_eq, ← List.append_assoc]
      exact ih later

/-- Where nothing is ahead, only the end is left to be marked. -/
theorem kind_of_nil (divides : Divides before [] tokens) (member : token ∈ tokens) :
    token.kind = .eof := by
  cases divides with
  | last _ ends =>
    obtain rfl := List.mem_singleton.mp member
    exact ends
  | next reads continues =>
    have none := List.append_eq_nil_iff.mp reads.ahead_eq.symm
    exact absurd none.1 (reads.passed_ne_nil continues)

/-- Tokens do not overlap and stand in the order of their places. -/
theorem pairwise_precedes (divides : Divides before ahead tokens) :
    tokens.Pairwise Token.Precedes := by
  induction divides with
  | last => exact List.pairwise_singleton _ _
  | next reads continues others ih =>
    refine List.pairwise_cons.mpr ⟨fun later member => ?_, ih⟩
    have behind := others.length_le_position member
    refine ⟨fun valid => (reads.finish_eq valid).trans_le behind, fun goesOn => ?_⟩
    refine (reads.start_lt ?_).trans_le behind
    rintro rfl
    exact goesOn (others.kind_of_nil member)

/-- Where every token is valid, a character between the tokens is blank or part of a comment between
them. -/
theorem isBlank_or_commentSpans (divides : Divides before ahead tokens)
    (valid : ∀ token ∈ tokens, token.kind ≠ .invalid) {i : Nat} {c : Char}
    (found : ahead[i]? = some c)
    (uncovered : ∀ token ∈ tokens, ¬ token.Covers (before.length + i)) :
    Character.isBlank c = true ∨ ∃ start finish, CommentSpans (before ++ ahead) start finish ∧
      before.length ≤ start ∧ start ≤ before.length + i ∧ before.length + i < finish ∧
      ∀ token ∈ tokens, token.location.position + token.text.length ≤ start ∨
        finish ≤ token.location.position := by
  induction divides generalizing i with
  | last reads ends =>
    cases reads with
    | finish layout =>
      have inGap := (Reads.finish layout).isBlank_or_commentSpans
        (valid _ (List.mem_singleton_self _)) found (uncovered _ (List.mem_singleton_self _))
      refine inGap.imp_right ?_
      rintro ⟨start, finish, spans, inner, opens, closes, apart⟩
      exact ⟨start, finish, spans, inner, opens, closes, by simpa using .inr apart⟩
    | token _ _ continues => exact absurd ends continues
    | unexpected | unterminated => cases ends
  | @next before ahead token passed beyond others reads continues more ih =>
    obtain ⟨validHere, validLater⟩ := List.forall_mem_cons.mp valid
    obtain ⟨uncoveredHere, uncoveredLater⟩ := List.forall_mem_cons.mp uncovered
    have ends := reads.finish_eq validHere
    rw [List.length_append] at ends
    rw [reads.ahead_eq] at found
    by_cases here : i < passed.length
    · rw [List.getElem?_append_left here] at found
      refine (reads.isBlank_or_commentSpans validHere found uncoveredHere).imp_right ?_
      rintro ⟨start, finish, spans, inner, opens, closes, apart⟩
      refine ⟨start, finish, spans, inner, opens, closes, List.forall_mem_cons.mpr ⟨.inr apart, ?_⟩⟩
      intro later member
      have behind := more.length_le_position member
      rw [List.length_append] at behind
      exact .inr (by omega)
    · obtain ⟨i, rfl⟩ := Nat.exists_eq_add_of_le (Nat.not_lt.mp here)
      rw [List.getElem?_append_right (Nat.le_add_right _ _), Nat.add_sub_cancel_left] at found
      rw [← Nat.add_assoc, ← List.length_append] at uncoveredLater ⊢
      rw [reads.ahead_eq, ← List.append_assoc]
      refine (ih validLater found uncoveredLater).imp_right ?_
      rintro ⟨start, finish, spans, inner, opens, closes, apart⟩
      rw [List.length_append] at inner
      refine ⟨start, finish, spans, by omega, opens, closes, ?_⟩
      exact List.forall_mem_cons.mpr ⟨.inl (by omega), apart⟩

end Divides

/-- Once the end of the input is marked, nothing is ahead. -/
theorem next_of_eof {scanner : Scanner} (ends : scanner.next.1.kind = .eof) :
    scanner.next = (.eof scanner.next.1.location, ⟨[], scanner.next.1.location⟩) := by
  unfold next at ends ⊢
  split
  · rename_i finish failed
    rw [failed] at ends
    cases ends
  · rename_i rest location reached
    rw [reached] at ends
    cases rest with
    | nil => rfl
    | cons c cs => exact absurd ends (lexeme_kind (List.cons_ne_nil c cs)).1

theorem call_of_nil (location : Location) (k : Nat) :
    (Scanner.mk [] location).call k = .eof location := by
  induction k with
  | zero => rfl
  | succ k ih => exact ih

/-- The calls of a scanner give its tokens, and then the mark of the end for ever. -/
theorem call_eq_getD {scanner : Scanner} {others : List Token} {location : Location} (k : Nat)
    (split : scanner.tokens = others ++ [.eof location])
    (continues : ∀ token ∈ others, token.kind ≠ .eof) :
    scanner.call k = (others[k]?).getD (.eof location) := by
  fun_induction tokens scanner generalizing others k with
  | case1 scanner token left step ends =>
    cases others with
    | cons other others => simp at split
    | nil =>
      obtain rfl : token = .eof location := by simpa using split
      have finished : scanner.next.1.kind = .eof := by
        rw [step]
        rfl
      have stays := next_of_eof finished
      rw [step] at stays
      cases k with
      | zero => rw [call, step]; rfl
      | succ k =>
        rw [call, step, (Prod.mk.inj stays).2]
        exact call_of_nil _ _
  | case2 scanner token left step goesOn ih =>
    cases others with
    | nil =>
      obtain ⟨rfl, -⟩ := List.cons_eq_cons.mp split
      exact absurd rfl goesOn
    | cons other others =>
      obtain ⟨rfl, later⟩ := List.cons_eq_cons.mp split
      cases k with
      | zero => rw [call, step]; rfl
      | succ k =>
        rw [call, step]
        exact ih k later (List.forall_mem_cons.mp continues).2

/-- Nothing is lost and nothing misplaced. A source of `n` characters has at most `n` tokens, and
every call behind them marks the end of the input, at `n`. Every token knows its place, and consists
of the characters there unless it is invalid. Tokens stand apart and in order, and where all of them
are valid there are only blanks and complete comments between them. -/
theorem tokens_exact (source : String) :
    (∃ others, (ofString source).tokens = others ++ [.eof (.behind source.toList)] ∧
      others.length ≤ source.length ∧ (∀ token ∈ others, token.kind ≠ .eof) ∧
      ∀ k, (ofString source).call k = (others[k]?).getD (.eof (.behind source.toList))) ∧
    (∀ token ∈ (ofString source).tokens,
      token.location = .behind (source.toList.take token.location.position)) ∧
    (∀ token ∈ (ofString source).tokens, token.kind ≠ .eof → token.kind ≠ .invalid →
      token.text.toList ≠ [] ∧ token.text.toList <+: source.toList.drop token.location.position) ∧
    (ofString source).tokens.Pairwise Token.Precedes ∧
    ((∀ token ∈ (ofString source).tokens, token.kind ≠ .invalid) →
      ∀ position c, source.toList[position]? = some c →
        (∀ token ∈ (ofString source).tokens, ¬ token.Covers position) →
        Character.isBlank c = true ∨ ∃ start finish, CommentSpans source.toList start finish ∧
          start ≤ position ∧ position < finish ∧
          ∀ token ∈ (ofString source).tokens,
            token.location.position + token.text.length ≤ start ∨
              finish ≤ token.location.position) := by
  have divides : Divides [] source.toList (ofString source).tokens :=
    divides_tokens (ofString source) rfl
  refine ⟨?_, ?_, ?_, divides.pairwise_precedes, ?_⟩
  · obtain ⟨others, split, few, continues⟩ := divides.ends
    exact ⟨others, split, few, continues, fun k => call_eq_getD k split continues⟩
  · intro token member
    obtain ⟨gap, starts, place⟩ := divides.located member
    rw [List.nil_append] at place
    have position : token.location.position = gap.length := by rw [place, Location.behind]
    rwa [position, ← List.prefix_iff_eq_take.mp starts]
  · intro token member continues valid
    exact divides.text member continues valid
  · intro valid position c found uncovered
    have outside := divides.isBlank_or_commentSpans valid found (by simpa using uncovered)
    refine outside.imp_right ?_
    rintro ⟨start, finish, spans, -, opens, closes, apart⟩
    exact ⟨start, finish, spans, by simpa using opens, by simpa using closes, apart⟩

/-- The comment that separates two factors is a complete one. -/
theorem exists_comment_of_uncovered :
    (Scanner.ofString "t/*/ d */*d").tokens.map Token.text = ["t", "*", "d", ""] ∧
      ∃ start finish, CommentSpans "t/*/ d */*d".toList start finish ∧ start ≤ 5 ∧ 5 < finish ∧
        1 ≤ start ∧ finish ≤ 9 := by
  have scanned : (Scanner.ofString "t/*/ d */*d").tokens =
      [⟨.identifier, "t", .start⟩, ⟨.times, "*", ⟨9, 1, 10⟩⟩, ⟨.identifier, "d", ⟨10, 1, 11⟩⟩,
        .eof ⟨11, 1, 12⟩] := by
    decide +kernel
  refine ⟨by rw [scanned]; rfl, ?_⟩
  have outside := (tokens_exact "t/*/ d */*d").2.2.2.2
  rw [scanned] at outside
  rcases outside (by decide) 5 'd' (by decide +kernel) (by decide) with blank | comment
  · exact absurd blank (by decide)
  · obtain ⟨start, finish, spans, opens, closes, apart⟩ := comment
    have first : 0 + 1 ≤ start ∨ finish ≤ 0 := apart _ (List.mem_cons_self ..)
    have second : 9 + 1 ≤ start ∨ finish ≤ 9 :=
      apart ⟨.times, "*", ⟨9, 1, 10⟩⟩ (List.mem_cons_of_mem _ (List.mem_cons_self ..))
    exact ⟨start, finish, spans, opens, closes, by omega, by omega⟩

end Scanner

end Dimensional
