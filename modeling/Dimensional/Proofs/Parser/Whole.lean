import Dimensional.Proofs.Derivation.Agreement
import Dimensional.Proofs.Derivation.Recognition
import Dimensional.Proofs.Derivation.Result
import Dimensional.Proofs.Token.Readable

/-! Reading one expression that takes up all tokens, and what is derived from them. -/

namespace Dimensional.Parser

variable {setting : Setting} {grammar : Grammar} {state : State} {tokens : List Token}
  {tree : Expression}

/-- The tokens before the end of the input. -/
def beforeEnd (tokens : List Token) : List Token := tokens.takeWhile fun token => token.kind ≠ .eof

/-- Read one expression from some tokens. -/
def readTokens (setting : Setting) (grammar : Grammar) (tokens : List Token) :
    Except ParseError Expression :=
  (whole setting grammar (.ofCursor (.ofTokens tokens))).result

theorem read_eq_readTokens {source : String} (h : Scanner.tokenize source = .ok tokens) :
    read setting grammar source = readTokens setting grammar tokens := by
  unfold read State.ofSource
  rw [h]
  rfl

theorem beforeEnd_append {derived rest : List Token} (h : ∀ token ∈ derived, token.kind ≠ .eof) :
    beforeEnd (derived ++ rest) = derived ++ beforeEnd rest :=
  List.takeWhile_append_of_pos fun token member => by simpa using h token member

theorem beforeEnd_concat {before : List Token} {last : Token} (ends : last.kind = .eof) :
    beforeEnd (before ++ [last]) = beforeEnd before := by
  induction before with
  | nil => simp [beforeEnd, ends]
  | cons token before ih =>
    unfold beforeEnd at ih ⊢
    rw [List.cons_append, List.takeWhile_cons, List.takeWhile_cons, ih]

/-- The first mark of the end is the first token that is passed over. -/
theorem exists_afterEnd (tokens : List Token) :
    ∃ rest, tokens = beforeEnd tokens ++ rest ∧ beforeEnd rest = [] := by
  induction tokens with
  | nil => exact ⟨[], rfl, rfl⟩
  | cons token tokens ih =>
    by_cases ends : token.kind = .eof
    · have stops : beforeEnd (token :: tokens) = [] := by simp [beforeEnd, ends]
      exact ⟨token :: tokens, by rw [stops, List.nil_append], stops⟩
    · obtain ⟨rest, parts, stops⟩ := ih
      have continues : beforeEnd (token :: tokens) = token :: beforeEnd tokens := by
        simp [beforeEnd, ends]
      refine ⟨rest, ?_, stops⟩
      rw [continues, List.cons_append, ← parts]

/-- A cursor sees the same tokens before the end. -/
theorem beforeEnd_ahead : beforeEnd (Cursor.ofTokens tokens).ahead = beforeEnd tokens := by
  unfold Cursor.ofTokens
  split
  · rename_i none
    rw [List.getLast?_eq_none_iff.mp none]
  · rename_i last some
    split
    · rename_i ends
      obtain ⟨before, rfl⟩ := List.getLast?_eq_some_iff.mp some
      rw [beforeEnd_concat ends]
      dsimp only
      rw [List.dropLast_concat]
    · rfl

theorem kind_of_beforeEnd {cursor : Cursor} {rest : List Token} (h : beforeEnd rest = []) :
    ({ cursor with ahead := rest } : Cursor).current.kind = .eof := by
  cases rest with
  | nil => exact cursor.last_kind
  | cons token rest =>
    by_cases ends : token.kind = .eof
    · exact ends
    · simp [beforeEnd, ends] at h

theorem beforeEnd_of_atEnd {cursor : Cursor} (h : cursor.atEnd) : beforeEnd cursor.ahead = [] := by
  obtain ⟨ahead, last, ends⟩ := cursor
  cases ahead with
  | nil => rfl
  | cons token rest =>
    have found : token.kind = .eof := of_decide_eq_true h
    simp [beforeEnd, found]

theorem whole_result :
    (whole setting grammar state).result =
      (do
        let (read, later) ←
          (expression setting grammar { state with numbering := .empty }).outcome
        if later.cursor.atEnd then .ok read
        else .error (.unexpected (.token .eof) later.current)) := by
  have step : ((expression setting grammar { state with numbering := .empty }).andThen
      fun read later _ =>
        if later.cursor.atEnd then .done read else later.unexpected (.token .eof)).outcome =
      (expression setting grammar { state with numbering := .empty }).outcome >>= fun reached =>
        if reached.2.cursor.atEnd then .ok reached
        else .error (.unexpected (.token .eof) reached.2.current) := by
    refine Step.outcome_andThen fun read later _ => ?_
    dsimp only
    split <;> rfl
  unfold whole State.apart
  dsimp only
  rw [Step.result_eq_map_outcome, step]
  cases (expression setting grammar { state with numbering := .empty }).outcome with
  | error error => rfl
  | ok reached =>
    rw [Except.ok_bind, Except.ok_bind]
    split <;> rfl

/-- What is read as a whole is derived and evaluated. -/
theorem readTokens_evaluated (h : readTokens setting grammar tokens = .ok tree) :
    ∃ (derivation : Derivation (.expression grammar)) (numbering : Numbering),
      derivation.Permitted setting.vocabulary ∧ derivation.tokens = beforeEnd tokens ∧
        derivation.Evaluates setting () 0 .empty tree numbering := by
  unfold readTokens at h
  rw [whole_result] at h
  obtain ⟨⟨read, later⟩, reached, h⟩ := Except.bind_eq_ok.mp h
  dsimp only at h
  split at h
  · rename_i ends
    cases h
    obtain ⟨derivation, permitted, spans, _, evaluated⟩ := (recognized setting).1 _ _ _ _ reached
    refine ⟨derivation, later.numbering, permitted, ?_, evaluated⟩
    have ahead : (Cursor.ofTokens tokens).ahead = derivation.tokens ++ later.cursor.ahead :=
      congrArg Cursor.ahead spans
    rw [← beforeEnd_ahead, ahead, beforeEnd_append derivation.kind_ne_eof,
      beforeEnd_of_atEnd ends, List.append_nil]
  · cases h

/-- What is read as a whole is derived. -/
theorem readTokens_recognized (h : readTokens setting grammar tokens = .ok tree) :
    ∃ derivation : Derivation (.expression grammar),
      derivation.Permitted setting.vocabulary ∧ derivation.tokens = beforeEnd tokens := by
  obtain ⟨derivation, _, permitted, same, _⟩ := readTokens_evaluated h
  exact ⟨derivation, permitted, same⟩

/-- What is derived is read as a whole, and comes to what the derivation is evaluated to. -/
theorem readTokens_eq_evaluate (derivation : Derivation (.expression grammar))
    (permitted : derivation.Permitted setting.vocabulary)
    (same : derivation.tokens = beforeEnd tokens) :
    readTokens setting grammar tokens =
      (derivation.evaluate setting () 0 .empty).map Prod.fst := by
  obtain ⟨rest, parts, stops⟩ := exists_afterEnd (Cursor.ofTokens tokens).ahead
  rw [beforeEnd_ahead, ← same] at parts
  have start : State.ofCursor (.ofTokens tokens) =
      (State.ofCursor (.ofTokens tokens)).withAhead (derivation.tokens ++ rest) := by
    rw [← parts]
    rfl
  have finished (state : State) : (state.withAhead rest).kind = .eof := kind_of_beforeEnd stops
  have ends (state : State) : (Category.expression grammar).EndsBefore (state.withAhead rest).kind := by
    rw [finished]
    simp [Category.EndsBefore, MulOp.ofKind?, AddOp.ofKind?]
  have read := derivation.agrees permitted () (.ofCursor (.ofTokens tokens)) rest (ends _)
  rw [← start] at read
  unfold readTokens
  rw [whole_result]
  change ((expression setting grammar (.ofCursor (.ofTokens tokens))).outcome >>= _) = _
  change (expression setting grammar (.ofCursor (.ofTokens tokens))).outcome = _ at read
  rw [read]
  change ((derivation.evaluate setting () 0 .empty).map _ >>= _) = _
  cases derivation.evaluate setting () 0 .empty with
  | error error => rfl
  | ok evaluated =>
    have atEnd : (((State.ofCursor (.ofTokens tokens)).withNumbering evaluated.2).withAhead
        rest).cursor.atEnd = true := decide_eq_true (finished _)
    exact if_pos atEnd

theorem readTokens_eq_ok_iff :
    readTokens setting grammar tokens = .ok tree ↔
      ∃ (derivation : Derivation (.expression grammar)) (numbering : Numbering),
        derivation.Permitted setting.vocabulary ∧ derivation.tokens = beforeEnd tokens ∧
          derivation.Evaluates setting () 0 .empty tree numbering := by
  constructor
  · exact readTokens_evaluated
  · rintro ⟨derivation, numbering, permitted, same, evaluated⟩
    rw [readTokens_eq_evaluate derivation permitted same, evaluated.evaluate_eq_ok]
    rfl

/-- Whatever the tokens are derived from is evaluated to what is read. -/
theorem evaluates_of_readTokens (derivation : Derivation (.expression grammar))
    (permitted : derivation.Permitted setting.vocabulary)
    (same : derivation.tokens = beforeEnd tokens)
    (h : readTokens setting grammar tokens = .ok tree) :
    ∃ numbering, derivation.Evaluates setting () 0 .empty tree numbering := by
  rw [readTokens_eq_evaluate derivation permitted same] at h
  obtain ⟨⟨value, numbering⟩, evaluated, rfl⟩ := Except.map_eq_ok.mp h
  exact ⟨numbering, Derivation.evaluates_of_eq_ok evaluated⟩

theorem readable_beforeEnd (scanned : ∀ token ∈ tokens, token.IsScanned) :
    Readable (beforeEnd tokens) := by
  intro token member isNumber
  exact (scanned token ((List.takeWhile_subset _) member)).readable isNumber

/-- The tree of a derivation is the tree that is read. -/
theorem marks_of_readTokens (derivation : Derivation (.expression grammar))
    (permitted : derivation.Permitted setting.vocabulary)
    (same : derivation.tokens = beforeEnd tokens)
    (h : readTokens setting grammar tokens = .ok tree) :
    derivation.trees = [tree.map Node.mark] := by
  rw [readTokens_eq_evaluate derivation permitted same] at h
  obtain ⟨⟨value, numbering⟩, evaluated, rfl⟩ := Except.map_eq_ok.mp h
  exact (Derivation.trees_of_evaluate evaluated).symm

/-- Quantities are read exactly where they are derived: what is read is the tree of a derivation,
and what is derived from scanned tokens is read as its tree unless something is wrong with what it
says. -/
theorem readTokens_exact (vocabulary : Vocabulary) (tokens : List Token) :
    (∀ tree, readTokens (.standard vocabulary) .quantity tokens = .ok tree →
      ∃ derivation : Derivation (.expression .quantity), derivation.Permitted vocabulary ∧
        derivation.tokens = beforeEnd tokens ∧ derivation.trees = [tree.map Node.mark]) ∧
    ((∀ token ∈ tokens, token.IsScanned) →
      ∀ derivation : Derivation (.expression .quantity), derivation.Permitted vocabulary →
        derivation.tokens = beforeEnd tokens →
        (∃ tree, readTokens (.standard vocabulary) .quantity tokens = .ok tree ∧
          derivation.trees = [tree.map Node.mark]) ∨
        ∃ error, readTokens (.standard vocabulary) .quantity tokens = .error error ∧
          error.IsOfMeaning) := by
  constructor
  · intro tree h
    obtain ⟨derivation, permitted, same⟩ := readTokens_recognized h
    exact ⟨derivation, permitted, same, marks_of_readTokens derivation permitted same h⟩
  · intro scanned derivation permitted same
    cases reached : readTokens (.standard vocabulary) .quantity tokens with
    | ok tree =>
      exact .inl ⟨tree, rfl, marks_of_readTokens derivation permitted same reached⟩
    | error error =>
      refine .inr ⟨error, rfl, ?_⟩
      have readable : Readable derivation.tokens := same ▸ readable_beforeEnd scanned
      rw [readTokens_eq_evaluate derivation permitted same] at reached
      cases evaluated : derivation.evaluate (.standard vocabulary) () 0 .empty with
      | ok value =>
        rw [evaluated] at reached
        cases reached
      | error reason =>
        rw [evaluated] at reached
        cases reached
        exact derivation.evaluate_failsOnly readable () 0 .empty _ evaluated

/-- A product is read as what is derived; a sum of metres and seconds is derived and refused. -/
theorem exists_derivation_of_product_and_sum :
    (∃ tokens tree, ∃ derivation : Derivation (.expression .quantity),
      Scanner.tokenize "2 m * s" = .ok tokens ∧
        readTokens (.standard Scope.si.vocabulary) .quantity tokens = .ok tree ∧
        derivation.tokens = beforeEnd tokens ∧ derivation.trees = [tree.map Node.mark]) ∧
    (∃ tokens error, Scanner.tokenize "m + s" = .ok tokens ∧
      readTokens (.standard Scope.si.vocabulary) .quantity tokens = .error error ∧
        error.IsOfMeaning) := by
  constructor
  · let tokens : List Token :=
      [⟨.number, "2", .start⟩, ⟨.identifier, "m", ⟨2, 1, 3⟩⟩, ⟨.times, "*", ⟨4, 1, 5⟩⟩,
        ⟨.identifier, "s", ⟨6, 1, 7⟩⟩, .eof ⟨7, 1, 8⟩]
    have scanned : Scanner.tokenize "2 m * s" = .ok tokens :=
      Except.toOption_eq_some.mp (by decide +kernel)
    have accepted :
        (readTokens (.standard Scope.si.vocabulary) .quantity tokens).toOption.isSome := by
      decide +kernel
    obtain ⟨tree, some⟩ := Option.isSome_iff_exists.mp accepted
    have read := Except.toOption_eq_some.mp some
    obtain ⟨derivation, _, same, trees⟩ :=
      (readTokens_exact Scope.si.vocabulary tokens).1 tree read
    exact ⟨tokens, tree, derivation, scanned, read, same, trees⟩
  · let word (text : String) (location : Location) : Terminal .identifier :=
      ⟨⟨.identifier, text, location⟩, rfl⟩
    let derivation : Derivation (.expression .quantity) :=
      .expression (.term (.factor (.name (word "m" .start))) .lastFactor)
        (.sum .plus ⟨⟨.plus, "+", ⟨2, 1, 3⟩⟩, rfl⟩
          (.term (.factor (.name (word "s" ⟨4, 1, 5⟩))) .lastFactor) .lastTerm)
    let tokens := derivation.tokens ++ [.eof ⟨5, 1, 6⟩]
    have scanned : Scanner.tokenize "m + s" = .ok tokens :=
      Except.toOption_eq_some.mp (by decide +kernel)
    have refused : (readTokens (.standard Scope.si.vocabulary) .quantity tokens).toOption = none := by
      decide +kernel
    have decided := (readTokens_exact Scope.si.vocabulary tokens).2
      (Scanner.isScanned_of_tokenize scanned) derivation (by decide +kernel) (by decide +kernel)
    rcases decided with ⟨tree, read, _⟩ | ⟨error, failed, ofMeaning⟩
    · rw [read] at refused
      cases refused
    · exact ⟨tokens, error, scanned, failed, ofMeaning⟩

end Dimensional.Parser
