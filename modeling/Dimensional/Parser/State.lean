import Dimensional.Cursor
import Dimensional.ParseError

/-! What a parser remembers between two tokens, and the steps that it is made of. -/
namespace Dimensional.Parser

/-- The free names met so far. A name's number is its place in this list. -/
structure Numbering where
  names : List String
deriving DecidableEq, Repr

namespace Numbering

def empty : Numbering := ⟨[]⟩

/-- The number of a name, which is a new one for a new name. -/
def numberFor (numbering : Numbering) (name : String) : Nat × Numbering :=
  match numbering.names.findIdx? fun known => known == name with
  | some number => (number, numbering)
  | none => (numbering.names.length, ⟨numbering.names ++ [name]⟩)

def count (numbering : Numbering) : Nat := numbering.names.length

end Numbering

/-- The tokens to come, how many expressions are open, and the free names numbered so far. -/
structure State where
  cursor : Cursor
  depth : Nat
  numbering : Numbering
deriving DecidableEq, Repr

namespace State

def ofCursor (cursor : Cursor) : State := ⟨cursor, 0, .empty⟩

/-- The next token. -/
def current (state : State) : Token := state.cursor.current

/-- The kind of the next token. -/
def kind (state : State) : Token.Kind := state.cursor.current.kind

/-- The place of the next token. -/
def location (state : State) : Location := state.cursor.current.location

def advance (state : State) : State := { state with cursor := state.cursor.advance }

def remaining (state : State) : Nat := state.cursor.remaining

theorem remaining_advance_le (state : State) : state.advance.remaining ≤ state.remaining :=
  state.cursor.remaining_advance_le

theorem remaining_advance_lt {state : State} (h : state.kind ≠ .eof) :
    state.advance.remaining < state.remaining :=
  Cursor.remaining_advance_lt h

end State

/-- The outcome of reading from a state. No step gives tokens back. -/
structure Step (before : State) (α : Type) where
  result : Except ParseError α
  after : State
  remaining_le : after.remaining ≤ before.remaining

namespace Step

variable {α β : Type} {before : State}

def done (value : α) : Step before α := ⟨.ok value, before, Nat.le_refl _⟩

def fail (error : ParseError) : Step before α := ⟨.error error, before, Nat.le_refl _⟩

/-- A step from a later state, seen from an earlier one. -/
def since {later : State} (h : later.remaining ≤ before.remaining) (step : Step later α) :
    Step before α :=
  ⟨step.result, step.after, Nat.le_trans step.remaining_le h⟩

/-- Go on from where a step ended, unless it failed. -/
def andThen (step : Step before α)
    (next : α → (later : State) → later.remaining ≤ before.remaining → Step later β) :
    Step before β :=
  match step with
  | ⟨.ok value, later, h⟩ => (next value later h).since h
  | ⟨.error error, later, h⟩ => ⟨.error error, later, h⟩

/-- Go on with a value that does not depend on what is still to be read. -/
def map (f : α → β) (step : Step before α) : Step before β :=
  ⟨step.result.map f, step.after, step.remaining_le⟩

end Step

namespace State

/-- Fail at the next token. -/
def unexpected {α : Type} (state : State) (expected : Expectation) : Step state α :=
  .fail (.unexpected expected state.current)

/-- Go past the next token. -/
def take (state : State) : Step state Token :=
  ⟨.ok state.current, state.advance, state.remaining_advance_le⟩

/-- Go past the next token, which has to be of the given kind. -/
def expect (state : State) (kind : Token.Kind) : Step state Token :=
  if state.kind = kind then state.take else state.unexpected (.token kind)

end State

end Dimensional.Parser
