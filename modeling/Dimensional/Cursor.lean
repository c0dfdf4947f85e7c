import Dimensional.Token

/-! Reading tokens one after another, with any number of them in view. -/
namespace Dimensional

/-- The tokens not yet read. The last of a list of tokens marks the end of the input, and views
beyond it show it again. -/
structure Cursor where
  ahead : List Token
  last : Token
  last_kind : last.kind = .eof
deriving DecidableEq, Repr

namespace Cursor

/-- Start at the first of some tokens. A mark of the end is added where the last one is none. -/
def ofTokens (tokens : List Token) : Cursor :=
  match tokens.getLast? with
  | none => ⟨[], .eof .start, rfl⟩
  | some last =>
    if h : last.kind = .eof then ⟨tokens.dropLast, last, h⟩
    else ⟨tokens, .eof last.finish, rfl⟩

/-- The `k`-th token from here, counted from 1. -/
def peek (cursor : Cursor) (k : Nat) : Token :=
  cursor.ahead[k - 1]?.getD cursor.last

/-- The next token. -/
def current (cursor : Cursor) : Token :=
  cursor.ahead.head?.getD cursor.last

def atEnd (cursor : Cursor) : Bool :=
  cursor.current.kind = .eof

/-- Go past the next token, unless it marks the end. -/
def advance (cursor : Cursor) : Cursor :=
  match cursor.ahead with
  | [] => cursor
  | token :: rest => if token.kind = .eof then cursor else { cursor with ahead := rest }

/-- How many tokens are left, the last one not counted. -/
def remaining (cursor : Cursor) : Nat :=
  cursor.ahead.length

theorem remaining_advance_le (cursor : Cursor) : cursor.advance.remaining ≤ cursor.remaining := by
  unfold advance remaining
  split
  · exact Nat.le_refl _
  · split <;> simp_all

theorem remaining_advance_lt {cursor : Cursor} (h : cursor.current.kind ≠ .eof) :
    cursor.advance.remaining < cursor.remaining := by
  unfold advance remaining
  unfold current at h
  split
  · simp_all [cursor.last_kind]
  · simp_all

end Cursor

end Dimensional
