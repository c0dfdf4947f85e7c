import Dimensional.Parser.Source
import Dimensional.Proofs.Except

/-! What the parser's functions come to: their values and end states, as equations that no longer
mention how far each step may read. -/

namespace Dimensional.Parser

variable {α β : Type} {before later : State} {setting : Setting} {grammar : Grammar} {state : State}

namespace Step

/-- The value of a step that succeeds and the state that it ends in. -/
def outcome (step : Step before α) : Except ParseError (α × State) :=
  step.result.map (·, step.after)

@[simp] theorem outcome_since {h : later.remaining ≤ before.remaining} {step : Step later α} :
    (since h step).outcome = step.outcome := rfl

theorem outcome_map {f : α → β} {step : Step before α} :
    (step.map f).outcome = step.outcome >>= fun reached => .ok (f reached.1, reached.2) := by
  obtain ⟨result, after, _⟩ := step
  cases result <;> rfl

/-- What follows a step depends on its value and end state only. -/
theorem outcome_andThen {step : Step before α}
    {next : α → (later : State) → later.remaining ≤ before.remaining → Step later β}
    {f : α × State → Except ParseError (β × State)}
    (h : ∀ value later le, (next value later le).outcome = f (value, later)) :
    (step.andThen next).outcome = step.outcome >>= f := by
  obtain ⟨result, after, le⟩ := step
  cases result with
  | error error => rfl
  | ok value => exact h value after le

theorem remaining_le_of_outcome {step : Step before α} {value : α} {after : State}
    (h : step.outcome = .ok (value, after)) : after.remaining ≤ before.remaining := by
  obtain ⟨result, reached, le⟩ := step
  cases result with
  | error error => cases h
  | ok value =>
    cases h
    exact le

theorem result_eq_map_outcome {step : Step before α} :
    step.result = step.outcome.map Prod.fst := by
  obtain ⟨result, after, _⟩ := step
  cases result <;> rfl

end Step

/-- An algebraic operation whose operator stands at a place. -/
def locate (location : Location) (result : Except AlgebraError α) : Except ParseError α :=
  result.mapError (.algebra · location)

theorem locate_eq_ok {location : Location} {result : Except AlgebraError α} {value : α} :
    locate location result = .ok value ↔ result = .ok value :=
  Except.mapError_eq_ok

/-- Whether one more expression may be opened. -/
def allowNesting (limit? : Option Nat) (depth : Nat) : Except ParseError Unit :=
  match limit?.filter (· < depth + 1) with
  | some limit => .error (.tooDeep limit)
  | none => .ok ()

namespace State

def opened (state : State) : State := { state with depth := state.depth + 1 }

def closed (state : State) : State := { state with depth := state.depth - 1 }

theorem enter_outcome {limit? : Option Nat} :
    (state.enter limit?).outcome = (allowNesting limit? state.depth).map fun _ => ((), state.opened) := by
  unfold enter allowNesting
  cases h : limit?.filter (· < state.depth + 1) <;> simp only [h] <;> rfl

theorem expect_outcome {kind : Token.Kind} :
    (state.expect kind).outcome =
      if state.kind = kind then .ok (state.current, state.advance)
      else .error (.unexpected (.token kind) state.current) := by
  unfold expect
  split <;> rfl

/-- Some tokens stand between two states. -/
def Spans (before : State) (tokens : List Token) (after : State) : Prop :=
  before.cursor = { after.cursor with ahead := tokens ++ after.cursor.ahead }

theorem Spans.refl (state : State) : state.Spans [] state := rfl

theorem Spans.trans {first second third : State} {tokens more : List Token}
    (left : first.Spans tokens second) (right : second.Spans more third) :
    first.Spans (tokens ++ more) third := by
  unfold Spans at *
  rw [left, right]
  simp

theorem spans_advance (continues : state.kind ≠ .eof) : state.Spans [state.current] state.advance := by
  obtain ⟨⟨ahead, last, isEnd⟩, depth, numbering⟩ := state
  cases ahead with
  | nil => exact absurd isEnd continues
  | cons token rest =>
    have goesOn : token.kind ≠ .eof := continues
    simp [Spans, advance, current, Cursor.advance, Cursor.current, goesOn]

theorem Spans.current {after : State} {token : Token} {rest : List Token}
    (spans : state.Spans (token :: rest) after) : state.current = token := by
  unfold Spans at spans
  simp [State.current, Cursor.current, spans]

/-- The state before other tokens. -/
def withAhead (state : State) (ahead : List Token) : State :=
  { state with cursor := { state.cursor with ahead } }

/-- The state with other names numbered. -/
def withNumbering (state : State) (numbering : Numbering) : State := { state with numbering }

@[simp] theorem current_withAhead {token : Token} {rest : List Token} :
    (state.withAhead (token :: rest)).current = token := rfl

@[simp] theorem kind_withAhead {token : Token} {rest : List Token} :
    (state.withAhead (token :: rest)).kind = token.kind := rfl

@[simp] theorem depth_withAhead {ahead : List Token} : (state.withAhead ahead).depth = state.depth :=
  rfl

@[simp] theorem numbering_withAhead {ahead : List Token} :
    (state.withAhead ahead).numbering = state.numbering := rfl

theorem advance_withAhead {token : Token} {rest : List Token} (continues : token.kind ≠ .eof) :
    (state.withAhead (token :: rest)).advance = state.withAhead rest := by
  simp [withAhead, advance, Cursor.advance, continues]

/-- A token that is expected and there is passed. -/
theorem expect_eq_ok {kind : Token.Kind} {token : Token} {after : State}
    (h : (state.expect kind).outcome = .ok (token, after)) :
    state.kind = kind ∧ token = state.current ∧ after = state.advance := by
  rw [expect_outcome] at h
  split at h
  · rename_i found
    cases h
    exact ⟨found, rfl, rfl⟩
  · cases h

theorem enter_eq_ok {limit? : Option Nat} {after : State}
    (h : (state.enter limit?).outcome = .ok ((), after)) :
    allowNesting limit? state.depth = .ok () ∧ after = state.opened := by
  rw [enter_outcome] at h
  obtain ⟨_, allowed, same⟩ := Except.map_eq_ok.mp h
  exact ⟨allowed, (congrArg Prod.snd same).symm⟩

end State

end Dimensional.Parser
