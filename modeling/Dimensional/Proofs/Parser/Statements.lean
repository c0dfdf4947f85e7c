import Dimensional.Proofs.Parser.Whole
import Mathlib.Data.List.Forall2
import Mathlib.Data.List.TakeWhile

/-! Reading expressions separated by semicolons is reading each of them alone. -/

namespace Dimensional.Parser

variable {setting : Setting} {grammar : Grammar} {state later : State} {tokens rest : List Token}
  {tree : Expression} {trees : List Expression}

/-- Read expressions from some tokens, as from a source that is scanned to them. -/
def readStatements (setting : Setting) (grammar : Grammar) (tokens : List Token) :
    Except ParseError (List Expression) :=
  (statements setting grammar (.ofCursor (.ofTokens tokens))).result

theorem readAll_eq_readStatements {source : String} (h : Scanner.tokenize source = .ok tokens) :
    readAll setting grammar source = readStatements setting grammar tokens := by
  unfold readAll State.ofSource
  rw [h]
  rfl

/-- The parts of some tokens between semicolons, the empty ones left out. -/
def segments (tokens : List Token) : List (List Token) :=
  ((beforeEnd tokens).splitOnP fun token => token.kind = .semicolon).filter fun segment =>
    !segment.isEmpty

theorem mem_of_mem_splitOnP {α : Type} {p : α → Bool} {list part : List α}
    (member : part ∈ list.splitOnP p) : ∀ entry ∈ part, entry ∈ list := by
  induction list generalizing part with
  | nil => simp_all
  | cons first list ih =>
    rw [List.splitOnP_cons_eq_if_modifyHead] at member
    split at member
    · rcases List.mem_cons.mp member with rfl | later
      · nofun
      · exact fun entry inPart => List.mem_cons_of_mem _ (ih later entry inPart)
    · obtain ⟨head, tail, parts⟩ := List.exists_cons_of_ne_nil (List.splitOnP_ne_nil p list)
      rw [parts, List.modifyHead_cons] at member
      rw [parts] at ih
      rcases List.mem_cons.mp member with rfl | later
      · intro entry inPart
        rcases List.mem_cons.mp inPart with rfl | inHead
        · exact List.mem_cons_self
        · exact List.mem_cons_of_mem _ (ih List.mem_cons_self entry inHead)
      · exact fun entry inPart =>
          List.mem_cons_of_mem _ (ih (List.mem_cons_of_mem _ later) entry inPart)

/-- No mark of the end is among the segments. -/
theorem kind_ne_eof_of_mem_segments {part : List Token} (member : part ∈ segments tokens) :
    ∀ token ∈ part, token.kind ≠ .eof := by
  intro token inPart
  have before := mem_of_mem_splitOnP (List.mem_of_mem_filter member) token inPart
  simpa using List.mem_takeWhile_imp before

/-- The tokens that an expression can go on to. -/
def segment (tokens : List Token) : List Token :=
  tokens.takeWhile fun token => !token.kind.delimits

def afterSegment (tokens : List Token) : List Token :=
  tokens.dropWhile fun token => !token.kind.delimits

theorem segment_append_afterSegment (tokens : List Token) :
    segment tokens ++ afterSegment tokens = tokens :=
  List.takeWhile_append_dropWhile

theorem segment_not_delimits : ∀ token ∈ segment tokens, token.kind.delimits = false := by
  intro token member
  simpa using List.mem_takeWhile_imp member

theorem segments_of_end (ends : beforeEnd tokens = []) : segments tokens = [] := by
  simp [segments, ends]

theorem segments_of_semicolon {token : Token} (isSemicolon : token.kind = .semicolon) :
    segments (token :: rest) = segments rest := by
  simp [segments, beforeEnd, isSemicolon, List.splitOnP_cons_eq_if_modifyHead]

/-- What delimits an expression is a semicolon or ends the input. -/
theorem beforeEnd_of_delimited (stops : ∀ token ∈ rest.head?, token.kind.delimits = true) :
    beforeEnd rest = [] ∨
      ∃ separator more, rest = separator :: more ∧ separator.kind = .semicolon := by
  cases rest with
  | nil => exact .inl rfl
  | cons token more =>
    have delimits := stops token rfl
    simp only [Token.Kind.delimits, Bool.or_eq_true, decide_eq_true_eq] at delimits
    rcases delimits with isSemicolon | ends
    · exact .inr ⟨token, more, rfl, isSemicolon⟩
    · exact .inl (by simp [beforeEnd, ends])

theorem segments_append {part : List Token} (some : part ≠ [])
    (goesOn : ∀ token ∈ part, token.kind.delimits = false)
    (stops : ∀ token ∈ rest.head?, token.kind.delimits = true) :
    segments (part ++ rest) = part :: segments rest := by
  have noEnd : ∀ token ∈ part, token.kind ≠ .eof := fun token member =>
    Token.Kind.ne_eof_of_not_delimits (goesOn token member)
  have whole : (part.splitOnP fun token => token.kind = .semicolon) = [part] := by
    refine List.splitOnP_eq_singleton fun token member => ?_
    have := goesOn token member
    simp_all [Token.Kind.delimits]
  rcases beforeEnd_of_delimited stops with ends | ⟨separator, more, rfl, isSemicolon⟩
  · rw [segments_of_end ends]
    simp [segments, beforeEnd_append noEnd, ends, whole, some]
  · have continues : beforeEnd (separator :: more) = separator :: beforeEnd more := by
      simp [beforeEnd, isSemicolon]
    rw [segments_of_semicolon isSemicolon]
    simp [segments, beforeEnd_append noEnd, continues, List.splitOnP_append_cons, isSemicolon,
      whole, some]

section Segment

variable {part : List Token} (goesOn : ∀ token ∈ part, token.kind.delimits = false)
  (stops : ∀ token ∈ rest.head?, token.kind.delimits = true)

include goesOn stops

theorem segment_append : segment (part ++ rest) = part := by
  have none : rest.takeWhile (fun token => !token.kind.delimits) = [] := by
    cases rest with
    | nil => rfl
    | cons token more => simp [stops token rfl]
  unfold segment
  rw [List.takeWhile_append_of_pos fun token member => by simp [goesOn token member], none,
    List.append_nil]

theorem afterSegment_append : afterSegment (part ++ rest) = rest := by
  have whole := segment_append_afterSegment (part ++ rest)
  rw [segment_append goesOn stops] at whole
  exact List.append_cancel_left whole

end Segment

theorem afterSegment_delimited (tokens : List Token) :
    ∀ token ∈ (afterSegment tokens).head?, token.kind.delimits = true := by
  intro token member
  have := List.head?_dropWhile_not (fun token : Token => !token.kind.delimits) tokens
  unfold afterSegment at member
  rw [Option.mem_def.mp member] at this
  simpa using this

/-- The next token tells whether an expression goes on. -/
theorem State.delimits_iff (state : State) :
    state.kind.delimits = true ↔
      ∀ token ∈ state.cursor.ahead.head?, token.kind.delimits = true := by
  obtain ⟨⟨ahead, last, ends⟩, depth, numbering⟩ := state
  cases ahead with
  | nil => simp [State.kind, Cursor.current, Token.Kind.delimits, ends]
  | cons token more => simp [State.kind, Cursor.current]

theorem State.segment_ne_nil (goesOn : state.kind.delimits = false) :
    segment state.cursor.ahead ≠ [] := by
  intro none
  have whole := segment_append_afterSegment state.cursor.ahead
  rw [none, List.nil_append] at whole
  have stops := state.delimits_iff.mpr (whole ▸ afterSegment_delimited _)
  rw [goesOn] at stops
  cases stops

theorem segments_of_kind (isSemicolon : state.kind = .semicolon) :
    segments state.cursor.ahead = segments state.advance.cursor.ahead := by
  have spans : state.Spans [state.current] state.advance :=
    State.spans_advance (by rw [isSemicolon]; nofun)
  have ahead : state.cursor.ahead = state.current :: state.advance.cursor.ahead :=
    congrArg Cursor.ahead spans
  rw [ahead]
  exact segments_of_semicolon isSemicolon

theorem State.apart_outcome {α : Type} {read : (state : State) → Step state α} :
    (state.apart read).outcome =
      (read (state.withNumbering .empty)).outcome.map fun reached =>
        (reached.1, reached.2.withNumbering state.numbering) := by
  unfold State.apart Step.outcome
  dsimp only
  change _ = Except.map _ ((read { state with numbering := .empty }).result.map _)
  cases (read { state with numbering := .empty }).result <;> rfl

theorem State.delimits_of_atEnd (ends : state.cursor.atEnd = true) :
    state.kind.delimits = true := by
  have isEnd : state.kind = .eof := of_decide_eq_true ends
  rw [isEnd]
  rfl

theorem State.atEnd_or_semicolon (stops : state.kind.delimits = true) :
    state.cursor.atEnd = true ∨ state.kind = .semicolon := by
  simp only [Token.Kind.delimits, Bool.or_eq_true, decide_eq_true_eq] at stops
  exact stops.elim .inr fun isEnd => .inl (decide_eq_true isEnd)

theorem State.not_atEnd_of_semicolon (isSemicolon : state.kind = .semicolon) :
    ¬ state.cursor.atEnd = true := by
  intro ends
  have isEnd : state.kind = .eof := of_decide_eq_true ends
  rw [isSemicolon] at isEnd
  cases isEnd

theorem State.not_atEnd (goesOn : state.kind.delimits = false) : ¬ state.cursor.atEnd = true := by
  intro ends
  rw [State.delimits_of_atEnd ends] at goesOn
  cases goesOn

theorem State.kind_ne_semicolon (goesOn : state.kind.delimits = false) :
    state.kind ≠ .semicolon := by
  intro isSemicolon
  rw [isSemicolon] at goesOn
  cases goesOn

/-- What is said of lists of expressions is proved at the end of the input, at a semicolon from what
is behind it, and at an expression from all places where one may end. -/
@[elab_as_elim]
theorem statements_induction {p : State → Prop}
    (atEnd : ∀ state, state.cursor.atEnd = true → p state)
    (semicolon : ∀ state, state.kind = .semicolon → p state.advance → p state)
    (expression : ∀ state, state.kind.delimits = false →
      (∀ later : State, later.remaining ≤ state.remaining → later.kind.delimits = true → p later) →
      p state)
    (state : State) : p state := by
  induction state using statements.induct with
  | case1 state ends => exact atEnd state ends
  | case2 state _ isSemicolon ih => exact semicolon state isSemicolon ih
  | case3 state goesOn signed ih =>
    have inner : state.kind.delimits = false := by
      refine Bool.eq_false_iff.mpr fun stops => ?_
      exact (State.atEnd_or_semicolon stops).elim goesOn signed
    refine expression state inner fun later le stops => ?_
    rcases State.atEnd_or_semicolon stops with ends | isSemicolon
    · exact atEnd later ends
    · exact semicolon later isSemicolon (ih later le isSemicolon)

theorem statements_of_end (ends : state.cursor.atEnd = true) :
    (statements setting grammar state).outcome = .ok ([], state) := by
  rw [statements, if_pos ends]
  rfl

theorem statements_of_semicolon (isSemicolon : state.kind = .semicolon) :
    (statements setting grammar state).outcome =
      (statements setting grammar state.advance).outcome := by
  rw [statements, if_neg (State.not_atEnd_of_semicolon isSemicolon), dif_pos isSemicolon]
  rfl

/-- One expression is read first, and then the others from where it ends. -/
theorem statements_of_expression (goesOn : state.kind.delimits = false) :
    (statements setting grammar state).outcome =
      (do
        let (read, later) ← (state.apart (expression setting grammar)).outcome
        if later.kind.delimits then do
          let (others, last) ← (statements setting grammar later).outcome
          .ok (read :: others, last)
        else .error (.unexpected (.token .semicolon) later.current)) := by
  rw [statements, if_neg (State.not_atEnd goesOn), dif_neg (State.kind_ne_semicolon goesOn)]
  refine Step.outcome_andThen fun read later _ => ?_
  dsimp only
  split
  · rename_i ends
    rw [if_pos (State.delimits_of_atEnd ends), statements_of_end ends]
    rfl
  · rename_i unfinished
    split
    · rename_i isSemicolon
      rw [if_pos (by rw [isSemicolon]; rfl), statements_of_semicolon isSemicolon]
      exact Step.outcome_map
    · rename_i unexpected
      have inner : ¬ later.kind.delimits = true := fun stops =>
        (State.atEnd_or_semicolon stops).elim unfinished unexpected
      rw [if_neg inner]
      rfl

theorem endsBefore_of_delimits {kind : Token.Kind} (stops : kind.delimits = true) :
    (Category.expression grammar).EndsBefore kind := by
  simp only [Token.Kind.delimits, Bool.or_eq_true, decide_eq_true_eq] at stops
  rcases stops with rfl | rfl
  · simp [Category.EndsBefore, MulOp.ofKind?, AddOp.ofKind?]
  · simp [Category.EndsBefore, MulOp.ofKind?, AddOp.ofKind?]

variable (setting grammar) in
/-- Some tokens alone are read as a tree. -/
def ReadsAlone (location : Location) (part : List Token) (tree : Expression) : Prop :=
  readTokens setting grammar (part ++ [.eof location]) = .ok tree

theorem readsAlone_iff {location : Location} {part : List Token}
    (goesOn : ∀ token ∈ part, token.kind.delimits = false) :
    ReadsAlone setting grammar location part tree ↔
      ∃ (derivation : Derivation (.expression grammar)) (numbering : Numbering),
        derivation.Permitted setting.vocabulary ∧ derivation.tokens = part ∧
          derivation.Evaluates setting () 0 .empty tree numbering := by
  have noEnd : ∀ token ∈ part, token.kind ≠ .eof := fun token member =>
    Token.Kind.ne_eof_of_not_delimits (goesOn token member)
  have whole : beforeEnd (part ++ [.eof location]) = part := by
    rw [beforeEnd_append noEnd]
    simp [beforeEnd, Token.eof]
  unfold ReadsAlone
  rw [readTokens_eq_ok_iff, whole]

section Fresh

variable {location : Location} (fresh : state.depth = 0)

include fresh

/-- An expression that ends where it has to is read alone. -/
theorem readsAlone_of_expression
    (h : (expression setting grammar (state.withNumbering .empty)).outcome = .ok (tree, later))
    (stops : later.kind.delimits = true) :
    ReadsAlone setting grammar location (segment state.cursor.ahead) tree ∧
      later.cursor.ahead = afterSegment state.cursor.ahead ∧ later.depth = 0 := by
  obtain ⟨derivation, permitted, spans, depth, evaluated⟩ := (recognized setting).1 _ _ _ _ h
  have ahead : state.cursor.ahead = derivation.tokens ++ later.cursor.ahead :=
    congrArg Cursor.ahead spans
  have delimited := later.delimits_iff.mp stops
  have same : segment state.cursor.ahead = derivation.tokens := by
    rw [ahead, segment_append derivation.not_delimits delimited]
  have rest : afterSegment state.cursor.ahead = later.cursor.ahead := by
    rw [ahead, afterSegment_append derivation.not_delimits delimited]
  have shallow : (state.withNumbering .empty).depth = 0 := fresh
  rw [shallow] at evaluated depth
  refine ⟨(readsAlone_iff segment_not_delimits).mpr ?_, rest.symm, depth⟩
  exact ⟨derivation, later.numbering, permitted, same.symm, evaluated⟩

/-- What is read alone is read before more tokens. -/
theorem expression_of_readsAlone
    (h : ReadsAlone setting grammar location (segment state.cursor.ahead) tree) :
    ∃ numbering, (expression setting grammar (state.withNumbering .empty)).outcome =
      .ok (tree, (state.withNumbering numbering).withAhead (afterSegment state.cursor.ahead)) := by
  obtain ⟨derivation, numbering, permitted, same, evaluated⟩ :=
    (readsAlone_iff segment_not_delimits).mp h
  have stops : ((state.withNumbering .empty).withAhead
      (afterSegment state.cursor.ahead)).kind.delimits = true :=
    (State.delimits_iff _).mpr (afterSegment_delimited _)
  have ends : (Category.expression grammar).EndsBefore ((state.withNumbering .empty).withAhead
      (afterSegment state.cursor.ahead)).kind := endsBefore_of_delimits stops
  have read := derivation.agrees permitted () (state.withNumbering .empty) _ ends
  have start : (state.withNumbering .empty).withAhead
      (derivation.tokens ++ afterSegment state.cursor.ahead) = state.withNumbering .empty := by
    rw [same, segment_append_afterSegment]
    rfl
  have shallow : (state.withNumbering .empty).depth = 0 := fresh
  rw [start, shallow] at read
  refine ⟨numbering, ?_⟩
  change Category.read setting (.expression grammar) () _ = _
  rw [read]
  change Except.map _ (derivation.evaluate setting () 0 .empty) = _
  rw [evaluated.evaluate_eq_ok]
  rfl

end Fresh

/-- A list of expressions is read exactly when its segments are read alone. -/
def ReadsSegments (setting : Setting) (grammar : Grammar) (location : Location) (state : State) :
    Prop :=
  ∀ trees, (∃ after, (statements setting grammar state).outcome = .ok (trees, after)) ↔
    List.Forall₂ (ReadsAlone setting grammar location) (segments state.cursor.ahead) trees

namespace ReadsSegments

variable {location : Location}

theorem of_end (ends : state.cursor.atEnd = true) :
    ReadsSegments setting grammar location state := by
  intro trees
  rw [segments_of_end (beforeEnd_of_atEnd ends), statements_of_end ends, List.forall₂_nil_left_iff]
  constructor
  · rintro ⟨after, h⟩
    cases h
    rfl
  · rintro rfl
    exact ⟨state, rfl⟩

theorem of_semicolon (isSemicolon : state.kind = .semicolon)
    (others : ReadsSegments setting grammar location state.advance) :
    ReadsSegments setting grammar location state := by
  intro trees
  rw [segments_of_kind isSemicolon, statements_of_semicolon isSemicolon]
  exact others trees

theorem of_expression (fresh : state.depth = 0) (goesOn : state.kind.delimits = false)
    (others : ∀ later : State, later.remaining ≤ state.remaining → later.depth = 0 →
      later.kind.delimits = true → ReadsSegments setting grammar location later) :
    ReadsSegments setting grammar location state := by
  intro trees
  have parts : segments state.cursor.ahead =
      segment state.cursor.ahead :: segments (afterSegment state.cursor.ahead) := by
    have split := segments_append (State.segment_ne_nil goesOn) segment_not_delimits
      (afterSegment_delimited state.cursor.ahead)
    rwa [segment_append_afterSegment] at split
  rw [parts, statements_of_expression goesOn, List.forall₂_cons_left_iff]
  constructor
  · rintro ⟨after, h⟩
    obtain ⟨⟨_, later⟩, apart, h⟩ := Except.bind_eq_ok.mp h
    have le := Step.remaining_le_of_outcome apart
    rw [State.apart_outcome] at apart
    obtain ⟨⟨tree, reached⟩, read, same⟩ := Except.map_eq_ok.mp apart
    cases same
    dsimp only at h
    split at h
    · rename_i stops
      obtain ⟨⟨rest, last⟩, more, h⟩ := Except.bind_eq_ok.mp h
      cases h
      obtain ⟨alone, ahead, depth⟩ := readsAlone_of_expression fresh read stops
      have tail := (others _ le depth stops rest).mp ⟨_, more⟩
      refine ⟨tree, rest, alone, ?_, rfl⟩
      rw [← ahead]
      exact tail
    · cases h
  · rintro ⟨tree, rest, alone, tail, rfl⟩
    obtain ⟨numbering, read⟩ := expression_of_readsAlone fresh alone
    let later := ((state.withNumbering numbering).withAhead
      (afterSegment state.cursor.ahead)).withNumbering state.numbering
    have apart : (state.apart (expression setting grammar)).outcome = .ok (tree, later) := by
      rw [State.apart_outcome, read]
      rfl
    have stops : later.kind.delimits = true :=
      (State.delimits_iff _).mpr (afterSegment_delimited _)
    obtain ⟨after, more⟩ :=
      (others later (Step.remaining_le_of_outcome apart) fresh stops rest).mpr tail
    refine ⟨after, Except.bind_eq_ok.mpr ⟨_, apart, (if_pos stops).trans ?_⟩⟩
    exact Except.bind_eq_ok.mpr ⟨_, more, rfl⟩

end ReadsSegments

/-- The induction follows the expressions; before each of them, no expression is open. -/
theorem readsSegments (setting : Setting) (grammar : Grammar) (location : Location) (state : State)
    (fresh : state.depth = 0) : ReadsSegments setting grammar location state := by
  induction state using statements_induction with
  | atEnd state ends => exact .of_end ends
  | semicolon state isSemicolon ih => exact .of_semicolon isSemicolon (ih fresh)
  | expression state goesOn ih =>
    exact .of_expression fresh goesOn fun later le depth stops => ih later le stops depth

theorem segments_ahead : segments (Cursor.ofTokens tokens).ahead = segments tokens := by
  unfold segments
  rw [beforeEnd_ahead]

theorem readStatements_eq_ok_iff (location : Location) :
    readStatements setting grammar tokens = .ok trees ↔
      List.Forall₂ (ReadsAlone setting grammar location) (segments tokens) trees := by
  have read := readsSegments setting grammar location (.ofCursor (.ofTokens tokens)) rfl trees
  unfold readStatements
  rw [Step.result_eq_map_outcome, ← segments_ahead]
  refine Iff.trans ?_ read
  constructor
  · intro h
    obtain ⟨⟨_, after⟩, outcome, rfl⟩ := Except.map_eq_ok.mp h
    exact ⟨after, outcome⟩
  · rintro ⟨after, outcome⟩
    exact Except.map_eq_ok.mpr ⟨_, outcome, rfl⟩

/-- Each entry of a list is related to something exactly when all of them are at once. -/
theorem exists_forall₂_iff {α β : Type} {r : α → β → Prop} {list : List α} :
    (∃ others, List.Forall₂ r list others) ↔ ∀ entry ∈ list, ∃ other, r entry other := by
  induction list with
  | nil => simp
  | cons first list ih =>
    rw [List.forall_mem_cons, ← ih]
    constructor
    · rintro ⟨others, related⟩
      cases related with
      | cons head tail => exact ⟨⟨_, head⟩, ⟨_, tail⟩⟩
    · rintro ⟨⟨other, head⟩, ⟨others, tail⟩⟩
      exact ⟨other :: others, .cons head tail⟩

/-- Expressions separated by semicolons are read exactly when each of them is read alone, and then
as the same trees in the same order. -/
theorem readStatements_exact (setting : Setting) (grammar : Grammar) (tokens : List Token)
    (location : Location) :
    ((∃ trees, readStatements setting grammar tokens = .ok trees) ↔
      ∀ part ∈ segments tokens, ∃ tree,
        readTokens setting grammar (part ++ [.eof location]) = .ok tree) ∧
    ∀ trees, readStatements setting grammar tokens = .ok trees ↔
      List.Forall₂ (fun part tree => readTokens setting grammar (part ++ [.eof location]) = .ok tree)
        (segments tokens) trees := by
  have read (trees : List Expression) : readStatements setting grammar tokens = .ok trees ↔
      List.Forall₂ (ReadsAlone setting grammar location) (segments tokens) trees :=
    readStatements_eq_ok_iff location
  exact ⟨(exists_congr read).trans exists_forall₂_iff, read⟩

/-- A doubled semicolon separates two expressions, as one does. -/
theorem exists_trees_of_two_segments :
    ∃ tokens trees, Scanner.tokenize "2 m;; s" = .ok tokens ∧ (segments tokens).length = 2 ∧
      readAll (.standard Scope.si.vocabulary) .quantity "2 m;; s" = .ok trees ∧
      List.Forall₂ (fun part tree =>
        readTokens (.standard Scope.si.vocabulary) .quantity (part ++ [.eof .start]) = .ok tree)
        (segments tokens) trees := by
  let tokens : List Token :=
    [⟨.number, "2", .start⟩, ⟨.identifier, "m", ⟨2, 1, 3⟩⟩, ⟨.semicolon, ";", ⟨3, 1, 4⟩⟩,
      ⟨.semicolon, ";", ⟨4, 1, 5⟩⟩, ⟨.identifier, "s", ⟨6, 1, 7⟩⟩, .eof ⟨7, 1, 8⟩]
  have scanned : Scanner.tokenize "2 m;; s" = .ok tokens :=
    Except.toOption_eq_some.mp (by decide +kernel)
  have exact := readStatements_exact (.standard Scope.si.vocabulary) .quantity tokens .start
  have alone : ∀ part ∈ segments tokens, ∃ tree, readTokens (.standard Scope.si.vocabulary)
      .quantity (part ++ [.eof .start]) = .ok tree := by
    have accepted : ∀ part ∈ segments tokens, (readTokens (.standard Scope.si.vocabulary)
        .quantity (part ++ [.eof .start])).toOption.isSome := by
      decide +kernel
    intro part member
    obtain ⟨tree, some⟩ := Option.isSome_iff_exists.mp (accepted part member)
    exact ⟨tree, Except.toOption_eq_some.mp some⟩
  obtain ⟨trees, read⟩ := exact.1.mpr alone
  have all : readAll (.standard Scope.si.vocabulary) .quantity "2 m;; s" = .ok trees :=
    (readAll_eq_readStatements scanned).trans read
  exact ⟨tokens, trees, scanned, by decide +kernel, all, (exact.2 trees).mp read⟩

end Dimensional.Parser
