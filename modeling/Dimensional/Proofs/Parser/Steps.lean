import Dimensional.Proofs.Parser.Statements

/-! Where steps end that may have failed, and what the parser's functions do in each case. -/

namespace Dimensional

/-- All tokens to come, with the mark of the end. -/
def Cursor.tokens (cursor : Cursor) : List Token := cursor.ahead ++ [cursor.last]

theorem Cursor.head?_tokens (cursor : Cursor) : cursor.tokens.head? = some cursor.current := by
  unfold tokens current
  cases cursor.ahead <;> rfl

/-- Go past some tokens. -/
def Cursor.skip (cursor : Cursor) (count : Nat) : Cursor :=
  { cursor with ahead := cursor.ahead.drop count }

namespace Parser

variable {α β : Type} {setting : Setting} {grammar : Grammar} {before later state after : State}

namespace State

/-- The later state is reached by passing tokens. -/
def Precedes (before after : State) : Prop := ∃ tokens, before.Spans tokens after

theorem Precedes.refl (state : State) : state.Precedes state := ⟨[], .refl state⟩

theorem Precedes.trans (first : before.Precedes later) (rest : later.Precedes after) :
    before.Precedes after := by
  obtain ⟨tokens, spans⟩ := first
  obtain ⟨more, goesOn⟩ := rest
  exact ⟨tokens ++ more, spans.trans goesOn⟩

theorem advance_of_end (ends : state.kind = .eof) : state.advance = state := by
  obtain ⟨⟨ahead, last, isEnd⟩, depth, numbering⟩ := state
  cases ahead with
  | nil => rfl
  | cons token rest =>
    have stops : token.kind = .eof := ends
    simp [advance, Cursor.advance, stops]

theorem precedes_advance (state : State) : state.Precedes state.advance := by
  by_cases ends : state.kind = .eof
  · rw [advance_of_end ends]
    exact .refl state
  · exact ⟨_, spans_advance ends⟩

theorem Spans.tokens_eq {tokens : List Token} (spans : before.Spans tokens after) :
    before.cursor.tokens = tokens ++ after.cursor.tokens := by
  unfold Spans at spans
  rw [spans, Cursor.tokens, Cursor.tokens, List.append_assoc]

theorem Spans.remaining_eq {tokens : List Token} (spans : before.Spans tokens after) :
    before.remaining = tokens.length + after.remaining := by
  unfold Spans at spans
  rw [remaining, spans]
  exact List.length_append

theorem Spans.cursor_eq {tokens : List Token} (spans : before.Spans tokens after) :
    after.cursor = before.cursor.skip tokens.length := by
  rw [spans, Cursor.skip, List.drop_left]

/-- A state stands as many tokens further as have been passed. -/
theorem Precedes.cursor_eq (precedes : before.Precedes after) :
    after.cursor = before.cursor.skip (before.remaining - after.remaining) := by
  obtain ⟨tokens, spans⟩ := precedes
  have passed : before.remaining - after.remaining = tokens.length := by
    rw [spans.remaining_eq]
    omega
  rw [passed, spans.cursor_eq]

end State

namespace Step

/-- A step goes on from where it begins, also where it fails. -/
def Advances (step : Step before α) : Prop := before.Precedes step.after

theorem Advances.done {value : α} : (done value : Step state α).Advances := .refl state

theorem Advances.fail {error : ParseError} : (fail error : Step state α).Advances := .refl state

theorem Advances.since {h : later.remaining ≤ before.remaining} {step : Step later α}
    (advances : step.Advances) (precedes : before.Precedes later) : (since h step).Advances :=
  precedes.trans advances

theorem Advances.map {f : α → β} {step : Step before α} (advances : step.Advances) :
    (step.map f).Advances := advances

theorem Advances.andThen {step : Step before α}
    {next : α → (later : State) → later.remaining ≤ before.remaining → Step later β}
    (first : step.Advances) (rest : ∀ value later le, (next value later le).Advances) :
    (step.andThen next).Advances := by
  obtain ⟨result, after, le⟩ := step
  cases result with
  | error error => exact first
  | ok value => exact State.Precedes.trans first (rest value after le)

theorem Advances.expect {kind : Token.Kind} : (state.expect kind).Advances := by
  unfold State.expect
  split
  · exact state.precedes_advance
  · exact .fail

end Step

theorem outcome_eq_ok {step : Step before α} {value : α} :
    step.outcome = .ok (value, after) ↔ step.result = .ok value ∧ step.after = after := by
  obtain ⟨result, reached, _⟩ := step
  cases result <;> simp [Step.outcome, Except.map]

/-! The functions that look at the next token, one equation for each kind of it. -/

section Equations

variable {sum : Worth} {chain : Chain} {afterLiteral : Bool}

theorem sumRest_of_none (none : AddOp.ofKind? state.kind = none) :
    sumRest setting grammar sum state = .done (sum, []) := by
  rw [sumRest]
  split
  · rfl
  · simp_all

theorem sumRest_of_some {op : AddOp} (some : AddOp.ofKind? state.kind = some op) :
    sumRest setting grammar sum state = .since state.remaining_advance_le
      ((term setting grammar state.advance).andThen fun next later _ =>
        match sum.add op next.root.worth with
        | .error error => .fail (.algebra error state.location)
        | .ok sum =>
          (sumRest setting grammar sum later).map fun (total, rest) =>
            (total, state.mark (.sum op) :: next :: rest)) := by
  rw [sumRest]
  split
  · simp_all
  · rename_i found
    obtain rfl := Option.some_inj.mp (found.symm.trans some)
    rfl

theorem productRest_of_some {op : MulOp} (some : MulOp.ofKind? state.kind = some op) :
    productRest setting grammar afterLiteral chain state = .since state.remaining_advance_le
      ((factor setting grammar state.advance).andThen fun next later _ =>
        match chain.apply op next.root.worth with
        | .error error => .fail (.algebra error state.location)
        | .ok chain =>
          (productRest setting grammar (isLiteral next) chain later).map fun (chain, rest) =>
            (chain, state.mark (.product op) :: next :: rest)) := by
  rw [productRest]
  split
  · rename_i found
    obtain rfl := Option.some_inj.mp (found.symm.trans some)
    rfl
  · simp_all

theorem productRest_of_silent (none : MulOp.ofKind? state.kind = none)
    (silent : afterLiteral = true ∧ multipliesSilently setting.vocabulary grammar state) :
    productRest setting grammar afterLiteral chain state =
      (factor setting grammar state).andThen fun next later _ =>
        match chain.apply .times next.root.worth with
        | .error error => .fail (.algebra error state.location)
        | .ok chain =>
          (productRest setting grammar false chain later).map fun (chain, rest) =>
            (chain, state.mark (.product .times) :: next :: rest) := by
  rw [productRest]
  split
  · simp_all
  · exact dif_pos silent

theorem productRest_of_none (none : MulOp.ofKind? state.kind = none)
    (signed : ¬ (afterLiteral = true ∧ multipliesSilently setting.vocabulary grammar state)) :
    productRest setting grammar afterLiteral chain state = .done (chain, []) := by
  rw [productRest]
  split
  · simp_all
  · rw [dif_neg signed]

theorem atom_of_name (opens : grammar.opening? state.kind = some .name) :
    atom setting grammar state = name setting.vocabulary grammar state := by
  rw [atom]
  split <;> simp_all

theorem atom_of_literal (opens : grammar.opening? state.kind = some .literal) :
    atom setting grammar state = literal state := by
  rw [atom]
  split <;> simp_all

theorem atom_of_parenthesis (opens : grammar.opening? state.kind = some .parenthesis) :
    atom setting grammar state = .since state.remaining_advance_le
      ((expression setting grammar state.advance).andThen fun inner later _ =>
        (later.expect .closeParen).map fun _ => inner) := by
  rw [atom]
  split <;> simp_all

theorem atom_of_vector {op : VectorOp} (opens : grammar.opening? state.kind = some (.vector op)) :
    atom setting grammar state = .since state.remaining_advance_le
      ((state.advance.expect .openParen).andThen fun _ opened _ =>
        (expression setting .quantity opened).andThen fun left later _ =>
          (later.expect .comma).andThen fun _ separated _ =>
            (expression setting .quantity separated).andThen fun right last _ =>
              (last.expect .closeParen).andThen fun _ _ _ =>
                match Quantity.vectorProduct op left.root.worth.toQuantity
                    right.root.worth.toQuantity
                    (setting.vocabulary.dimension? Quantity.angleKey) with
                | .error error => .fail (.algebra error state.location)
                | .ok product =>
                  .done (.node {
                    shape := .vector op, location := state.location
                    worth := .quantity product } [left, right])) := by
  rw [atom]
  split
  · simp_all
  · simp_all
  · simp_all
  · rename_i found
    obtain rfl := Opening.vector.inj (Option.some_inj.mp (found.symm.trans opens))
    rfl
  · simp_all

theorem atom_of_none (closed : grammar.opening? state.kind = none) :
    atom setting grammar state = state.unexpected (.factor grammar) := by
  rw [atom]
  split <;> simp_all

theorem exponent_of_opening (opening : state.kind = .openParen) :
    exponent setting state = .since state.remaining_advance_le
      ((expression setting .numeric state.advance).andThen fun inner later _ =>
        (later.expect .closeParen).map fun _ => inner) := by
  rw [exponent, dif_pos opening]

theorem exponent_of_plain (plain : state.kind ≠ .openParen) :
    exponent setting state = integer state := by
  rw [exponent, dif_neg plain]

theorem statements_eq_done (ends : state.cursor.atEnd = true) :
    statements setting grammar state = .done [] := by
  rw [statements, if_pos ends]

theorem statements_eq_since (isSemicolon : state.kind = .semicolon) :
    statements setting grammar state =
      .since state.remaining_advance_le (statements setting grammar state.advance) := by
  rw [statements, if_neg (State.not_atEnd_of_semicolon isSemicolon), dif_pos isSemicolon]

theorem statements_eq_andThen (goesOn : state.kind.delimits = false) :
    statements setting grammar state =
      (state.apart (expression setting grammar)).andThen fun read later _ =>
        if later.kind.delimits then (statements setting grammar later).map (read :: ·)
        else later.unexpected (.token .semicolon) := by
  rw [statements, if_neg (State.not_atEnd goesOn), dif_neg (State.kind_ne_semicolon goesOn)]
  congr 1
  funext read later _
  by_cases ends : later.cursor.atEnd = true
  · rw [if_pos ends, if_pos (State.delimits_of_atEnd ends), statements_eq_done ends]
    rfl
  · by_cases isSemicolon : later.kind = .semicolon
    · have stops : later.kind.delimits = true := by
        rw [isSemicolon]
        rfl
      rw [if_neg ends, dif_pos isSemicolon, if_pos stops, statements_eq_since isSemicolon]
      rfl
    · have further : ¬ later.kind.delimits = true := fun stops =>
        (State.atEnd_or_semicolon stops).elim ends isSemicolon
      rw [if_neg ends, dif_neg isSemicolon, if_neg further]

end Equations

namespace Step

theorem advances_enter {limit? : Option Nat} : (state.enter limit?).Advances := by
  unfold State.enter
  dsimp only
  split <;> exact .refl state

theorem advances_literal : (literal state).Advances := by
  unfold literal
  refine Advances.andThen state.precedes_advance fun token later _ => ?_
  split
  · exact .fail
  · exact .done

theorem advances_name {vocabulary : Vocabulary} : (name vocabulary grammar state).Advances := by
  unfold name
  refine Advances.andThen state.precedes_advance fun token later _ => ?_
  split
  · exact .fail
  · split
    · exact .fail
    · split
      · exact .fail
      · exact .done
  · split
    · exact .refl later
    · exact .done

theorem advances_magnitude : (magnitude state).Advances := by
  unfold magnitude
  split
  · exact advances_literal
  · exact .fail

theorem advances_integer : (integer state).Advances := by
  unfold integer
  split
  · exact advances_magnitude.map.since state.precedes_advance
  · exact advances_magnitude.map

end Step

/-- The induction follows the calls of the parser. -/
theorem advances (setting : Setting) :
    (∀ grammar state, (expression setting grammar state).Advances) ∧
    (∀ grammar sum state, (sumRest setting grammar sum state).Advances) ∧
    (∀ grammar state, (term setting grammar state).Advances) ∧
    (∀ grammar afterLiteral chain state,
      (productRest setting grammar afterLiteral chain state).Advances) ∧
    (∀ grammar state, (factor setting grammar state).Advances) ∧
    (∀ state, (exponent setting state).Advances) ∧
    (∀ grammar state, (atom setting grammar state).Advances) := by
  refine expression.mutual_induct setting _ _ _ _ _ _ _ ?expression ?lastTerm ?sum ?negated ?term
    ?product ?silent ?lastFactor ?factor ?grouped ?integer ?name ?literal ?parenthesized ?vector
    ?nothing
  case expression =>
    intro grammar state ihTerm ihRest
    rw [expression]
    refine Step.advances_enter.andThen fun _ opened le => ?_
    split
    · refine (ihTerm opened le).andThen fun first later further => ?_
      exact (ihRest opened le first later further).andThen fun _ last _ => .map (.refl last)
    · exact .fail
  case lastTerm =>
    intro grammar sum state none
    rw [sumRest_of_none none]
    exact .done
  case sum =>
    intro grammar sum state op some ihTerm ihRest
    rw [sumRest_of_some some]
    refine (ihTerm.andThen fun next later le => ?_).since state.precedes_advance
    split
    · exact .fail
    · exact (ihRest later le _).map
  case negated =>
    intro grammar state minus ihFactor ihRest
    rw [term, if_pos minus]
    refine (ihFactor.andThen fun first later le => ?_).since state.precedes_advance
    split
    · exact .fail
    · exact (ihRest first later le _).map
  case term =>
    intro grammar state plain ihFactor ihRest
    rw [term, if_neg plain]
    refine ihFactor.andThen fun first later le => ?_
    split
    · exact .fail
    · exact (ihRest first later le _).map
  case product =>
    intro grammar afterLiteral chain state op some ihFactor ihRest
    rw [productRest_of_some some]
    refine (ihFactor.andThen fun next later le => ?_).since state.precedes_advance
    split
    · exact .fail
    · exact (ihRest next later le _).map
  case silent =>
    intro grammar afterLiteral chain state none silently ihFactor ihRest
    rw [productRest_of_silent none silently]
    refine ihFactor.andThen fun next later le => ?_
    split
    · exact .fail
    · exact (ihRest later le _).map
  case lastFactor =>
    intro grammar afterLiteral chain state none signed
    rw [productRest_of_none none signed]
    exact .done
  case factor =>
    intro grammar state ihAtom ihExponent
    rw [factor]
    refine ihAtom.andThen fun base later le => ?_
    dsimp only
    split
    · rename_i power
      refine ((ihExponent later le power).andThen fun _ _ _ => ?_).since later.precedes_advance
      split
      · exact .fail
      · exact .done
    · exact .done
  case grouped =>
    intro state opening ihExpression
    rw [exponent_of_opening opening]
    exact (ihExpression.andThen fun _ _ _ => .map .expect).since state.precedes_advance
  case integer =>
    intro state plain
    rw [exponent_of_plain plain]
    exact Step.advances_integer
  case name =>
    intro grammar state opens
    rw [atom_of_name opens]
    exact Step.advances_name
  case literal =>
    intro grammar state opens
    rw [atom_of_literal opens]
    exact Step.advances_literal
  case parenthesized =>
    intro grammar state opens ihExpression
    rw [atom_of_parenthesis opens]
    exact (ihExpression.andThen fun _ _ _ => .map .expect).since state.precedes_advance
  case vector =>
    intro grammar state op opens ihLeft ihRight
    rw [atom_of_vector opens]
    refine (Step.Advances.expect.andThen fun _ opened le => ?_).since state.precedes_advance
    refine (ihLeft opened le).andThen fun left later further => ?_
    refine Step.Advances.expect.andThen fun _ separated beyond => ?_
    refine (ihRight opened le later further separated beyond).andThen fun right last _ => ?_
    refine Step.Advances.expect.andThen fun _ _ _ => ?_
    split
    · exact .fail
    · exact .done
  case nothing =>
    intro grammar state closed
    rw [atom_of_none closed]
    exact .fail

theorem Step.Advances.apart {read : (state : State) → Step state α}
    (advances : (read (state.withNumbering .empty)).Advances) : (state.apart read).Advances :=
  advances

theorem advances_whole : (whole setting grammar state).Advances := by
  refine .apart (((advances setting).1 grammar _).andThen fun _ _ _ => ?_)
  split
  · exact .done
  · exact .fail

theorem advances_statements : (statements setting grammar state).Advances := by
  induction state using statements_induction with
  | atEnd state ends =>
    rw [statements_eq_done ends]
    exact .done
  | semicolon state isSemicolon ih =>
    rw [statements_eq_since isSemicolon]
    exact ih.since state.precedes_advance
  | expression state goesOn ih =>
    rw [statements_eq_andThen goesOn]
    refine (Step.Advances.apart ((advances setting).1 grammar _)).andThen fun _ later le => ?_
    split
    · exact (ih later le ‹_›).map
    · exact .fail

end Parser

end Dimensional
