import Dimensional.Parser

/-! Reading whole sources: one expression, or any number of them separated by semicolons. -/
namespace Dimensional.Parser

/-- Read with a numbering of its own and leave the shared one as it is. -/
def State.apart {α : Type} (state : State) (read : (state : State) → Step state α) :
    Step state α :=
  let step := read { state with numbering := .empty }
  ⟨step.result, { step.after with numbering := state.numbering }, step.remaining_le⟩

/-- Read one expression that takes up all that is left. -/
def whole (setting : Setting) (grammar : Grammar) (state : State) : Step state Expression :=
  state.apart fun state =>
    (expression setting grammar state).andThen fun read later _ =>
      if later.cursor.atEnd then .done read else later.unexpected (.token .eof)

private theorem advance_lt_of_semicolon {state : State} (h : state.kind = .semicolon) :
    state.advance.remaining < state.remaining :=
  State.remaining_advance_lt fun finished => by simp [finished] at h

/-- Read expressions with a semicolon between each two. Further semicolons are passed over. -/
def statements (setting : Setting) (grammar : Grammar) (state : State) :
    Step state (List Expression) :=
  if state.cursor.atEnd then .done []
  else if _ : state.kind = .semicolon then
    .since state.remaining_advance_le (statements setting grammar state.advance)
  else
    (state.apart (expression setting grammar)).andThen fun read later _ =>
      if later.cursor.atEnd then .done [read]
      else if _ : later.kind = .semicolon then
        .since later.remaining_advance_le
          ((statements setting grammar later.advance).map (read :: ·))
      else later.unexpected (.token .semicolon)
termination_by state.remaining
decreasing_by
  all_goals
    have := advance_lt_of_semicolon ‹_›
    omega

/-- The tokens of a source, ready to be read. -/
def State.ofSource (source : String) : Except ParseError State :=
  match Scanner.tokenize source with
  | .error token => .error (.invalidToken token)
  | .ok tokens => .ok (.ofCursor (.ofTokens tokens))

/-- Read a source that is one expression. -/
def read (setting : Setting) (grammar : Grammar) (source : String) :
    Except ParseError Expression := do
  (whole setting grammar (← State.ofSource source)).result

/-- Read a source that is a list of expressions. -/
def readAll (setting : Setting) (grammar : Grammar) (source : String) :
    Except ParseError (List Expression) := do
  (statements setting grammar (← State.ofSource source)).result

end Dimensional.Parser
