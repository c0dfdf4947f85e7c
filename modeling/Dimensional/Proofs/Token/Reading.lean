import Dimensional.Proofs.Token.EndMark

/-! Cursors hand over their tokens one after another up to the first mark of the end, and show any
token ahead without going past it. -/

namespace Dimensional

/-- The index of the first mark of the end. -/
def Token.firstEnd (stream : List Token) : Nat := stream.findIdx (·.kind = .eof)

namespace Cursor

open Token

/-- What a cursor can be asked for: to show a token ahead or to tell whether it is of a kind, to hand
over the next token, whatever it is or only if it is of a kind, and to tell whether the end is
reached. -/
inductive Request where
  | peek (k : Nat)
  | peekIs (k : Nat) (kind : Token.Kind)
  | advance
  | expect (kind : Token.Kind)
  | atEnd

/-- What it replies. -/
inductive Reply where
  | shown (token : Token)
  | verdict (holds : Bool)
  | taken (token : Token)
  | expected (result : Except ParseError Token)

/-- The token that is handed over. -/
def Reply.received? : Reply → Option Token
  | taken token => some token
  | expected result => result.toOption
  | shown _ | verdict _ => none

def serve (cursor : Cursor) : Request → Reply × Cursor
  | .peek k => (.shown (cursor.peek k), cursor)
  | .peekIs k kind => (.verdict ((cursor.peek k).kind = kind), cursor)
  | .advance => (.taken cursor.current, cursor.advance)
  | .expect kind =>
    let step := (Parser.State.ofCursor cursor).expect kind
    (.expected step.result, step.after.cursor)
  | .atEnd => (.verdict cursor.atEnd, cursor)

/-- The tokens that are handed over to one request after another. -/
def received (cursor : Cursor) : List Request → List Token
  | [] => []
  | request :: requests =>
    (cursor.serve request).1.received?.toList ++ (cursor.serve request).2.received requests

/-- The cursor that these leave. -/
def after (cursor : Cursor) (requests : List Request) : Cursor :=
  requests.foldl (fun cursor request => (cursor.serve request).2) cursor

section View

variable {cursor : Cursor}

theorem getLast?_tokens : cursor.tokens.getLast? = some cursor.last := List.getLast?_concat

/-- The last token is shown behind all others. -/
theorem some_peek (k : Nat) :
    some (cursor.peek k) = cursor.tokens[k - 1]?.or cursor.tokens.getLast? := by
  rw [getLast?_tokens, peek, tokens]
  rcases Nat.lt_or_ge (k - 1) cursor.ahead.length with inside | beyond
  · rw [List.getElem?_append_left inside, List.getElem?_eq_getElem inside]
    rfl
  · rw [List.getElem?_append_right beyond, List.getElem?_eq_none beyond]
    cases k - 1 - cursor.ahead.length <;> rfl

theorem advance_of_end (ends : cursor.current.kind = .eof) : cursor.advance = cursor := by
  have stays : (Parser.State.ofCursor cursor).advance = .ofCursor cursor :=
    Parser.State.advance_of_end ends
  exact congrArg Parser.State.cursor stays

theorem tokens_of_continues (continues : cursor.current.kind ≠ .eof) :
    cursor.tokens = cursor.current :: cursor.advance.tokens := by
  have spans : (Parser.State.ofCursor cursor).Spans [cursor.current] (.ofCursor cursor.advance) :=
    Parser.State.spans_advance continues
  exact spans.tokens_eq

/-- The next token is expected if it is of the kind, and stays where it is otherwise. -/
theorem serve_expect (kind : Token.Kind) : cursor.serve (.expect kind) =
    if cursor.current.kind = kind then (.expected (.ok cursor.current), cursor.advance)
    else (.expected (.error (.unexpected (.token kind) cursor.current)), cursor) := by
  unfold serve Parser.State.expect
  dsimp only
  split
  · rename_i found
    exact (if_pos found).symm
  · rename_i other
    exact (if_neg other).symm

/-- A request is for the next token and gets it, or nothing is handed over. -/
theorem serve_cases (cursor : Cursor) (request : Request) :
    ((cursor.serve request).1.received? = some cursor.current ∧
      (cursor.serve request).2 = cursor.advance) ∨
    ((cursor.serve request).1.received? = none ∧ (cursor.serve request).2 = cursor) := by
  cases request with
  | peek k => exact .inr ⟨rfl, rfl⟩
  | peekIs k kind => exact .inr ⟨rfl, rfl⟩
  | advance => exact .inl ⟨rfl, rfl⟩
  | expect kind =>
    rw [serve_expect]
    split
    · exact .inl ⟨rfl, rfl⟩
    · exact .inr ⟨rfl, rfl⟩
  | atEnd => exact .inr ⟨rfl, rfl⟩

end View

section Marks

variable {stream : List Token} {index : Nat} {token : Token}

/-- Up to the first mark of the end there is no other. -/
theorem kind_eq_eof_iff (le : index ≤ firstEnd stream) (found : stream[index]? = some token) :
    token.kind = .eof ↔ index = firstEnd stream := by
  obtain ⟨inside, same⟩ := List.getElem?_eq_some_iff.mp found
  constructor
  · intro ends
    refine Nat.le_antisymm le (Nat.not_lt.mp fun before => ?_)
    have continues := List.not_of_lt_findIdx before
    rw [same] at continues
    exact of_decide_eq_false continues ends
  · rintro rfl
    have ends : decide (stream[firstEnd stream].kind = .eof) = true :=
      List.findIdx_getElem (w := inside)
    rw [same] at ends
    exact of_decide_eq_true ends

theorem firstEnd_lt_length (cursor : Cursor) : firstEnd cursor.tokens < cursor.tokens.length :=
  List.findIdx_lt_length.mpr
    ⟨cursor.last, List.mem_append_right _ List.mem_cons_self, decide_eq_true cursor.last_kind⟩

end Marks

/-- Some tokens are those of a stream from an index on, with the first mark of the end in the place
of all that is behind it. -/
def Continues (stream : List Token) (index : Nat) (tokens : List Token) : Prop :=
  ∀ i < tokens.length, tokens[i]? = stream[min (index + i) (firstEnd stream)]?

/-- The cursor stands at an index of a stream, and has gone past no mark of the end. -/
structure StandsAt (stream : List Token) (index : Nat) (cursor : Cursor) : Prop where
  tokens : cursor.tokens = stream.drop index
  le : index ≤ firstEnd stream

section Standing

variable {cursor : Cursor} {stream tokens rest : List Token} {index : Nat} {token : Token}

theorem continues_nil : Continues stream index [] := nofun

theorem continues_singleton (found : stream[min index (firstEnd stream)]? = some token) :
    Continues stream index [token] := by
  intro i inside
  obtain rfl := Nat.lt_one_iff.mp inside
  exact found.symm

theorem Continues.append (first : Continues stream index tokens)
    (second : Continues stream (index + tokens.length) rest) :
    Continues stream index (tokens ++ rest) := by
  intro i inside
  rcases Nat.lt_or_ge i tokens.length with before | behind
  · rw [List.getElem?_append_left before]
    exact first i before
  · rw [List.length_append] at inside
    rw [List.getElem?_append_right behind, second _ (by omega)]
    congr 2
    omega

theorem standsAt_ofTokens (tokens : List Token) :
    StandsAt (closed tokens) 0 (ofTokens tokens) :=
  ⟨tokens_ofTokens tokens, Nat.zero_le _⟩

namespace StandsAt

theorem current (stands : StandsAt stream index cursor) :
    stream[index]? = some cursor.current := by
  rw [← List.head?_drop, ← stands.tokens, head?_tokens]

theorem peek (stands : StandsAt stream index cursor) (k : Nat) :
    some (cursor.peek k) = stream[index + (k - 1)]?.or stream.getLast? := by
  have inside : ¬ stream.length ≤ index :=
    Nat.not_le_of_lt (List.getElem?_eq_some_iff.mp stands.current).1
  rw [some_peek, stands.tokens, List.getElem?_drop, List.getLast?_drop, if_neg inside]

theorem ends_iff (stands : StandsAt stream index cursor) :
    cursor.current.kind = .eof ↔ index = firstEnd stream :=
  kind_eq_eof_iff stands.le stands.current

theorem advance (stands : StandsAt stream index cursor) :
    StandsAt stream (min (index + 1) (firstEnd stream)) cursor.advance := by
  by_cases ends : cursor.current.kind = .eof
  · have here := stands.ends_iff.mp ends
    rw [advance_of_end ends, Nat.min_eq_right (here ▸ Nat.le_succ index), ← here]
    exact stands
  · have before : index + 1 ≤ firstEnd stream :=
      Nat.lt_of_le_of_ne stands.le fun here => ends (stands.ends_iff.mpr here)
    rw [Nat.min_eq_left before]
    refine ⟨?_, before⟩
    rw [← List.drop_drop, ← stands.tokens, tokens_of_continues ends, List.drop_one, List.tail_cons]

/-- The cursor stands as many tokens further as a request is handed. -/
theorem serve (stands : StandsAt stream (min index (firstEnd stream)) cursor) (request : Request) :
    let handed := (cursor.serve request).1.received?.toList
    Continues stream index handed ∧
      StandsAt stream (min (index + handed.length) (firstEnd stream)) (cursor.serve request).2 := by
  rcases serve_cases cursor request with ⟨taken, goesOn⟩ | ⟨none, stays⟩
  · rw [taken, goesOn]
    refine ⟨continues_singleton stands.current, ?_⟩
    have next : min (min index (firstEnd stream) + 1) (firstEnd stream) =
        min (index + 1) (firstEnd stream) := by omega
    rw [Option.toList_some, List.length_singleton, ← next]
    exact stands.advance
  · rw [none, stays]
    exact ⟨continues_nil, stands⟩

/-- The same for one request after another. -/
theorem run (stands : StandsAt stream (min index (firstEnd stream)) cursor)
    (requests : List Request) :
    Continues stream index (cursor.received requests) ∧
      StandsAt stream (min (index + (cursor.received requests).length) (firstEnd stream))
        (cursor.after requests) := by
  induction requests generalizing index cursor with
  | nil => exact ⟨continues_nil, stands⟩
  | cons request requests ih =>
    obtain ⟨first, next⟩ := stands.serve request
    obtain ⟨others, last⟩ := ih next
    refine ⟨first.append others, ?_⟩
    rw [received, List.length_append, ← Nat.add_assoc]
    exact last

end StandsAt

end Standing

/-- Cursors read the tokens that they are made of. Whatever is asked for, what is handed over are the
tokens up to the first mark of the end in their order, and from then on that mark. The cursor stands
behind what has been handed over, and at that mark at the latest: it is at the end exactly if it
stands there. It shows the tokens from where it stands on, the last one also behind the end of the
list; and it stays where it is unless a token is handed over, which is the next one, and which has to
be of the kind that is expected. -/
theorem reading_exact (tokens : List Token) (requests : List Request) :
    let stream := closed tokens
    let finish := firstEnd stream
    let received := (ofTokens tokens).received requests
    let cursor := (ofTokens tokens).after requests
    let index := min received.length finish
    (∀ i ≤ finish, ∃ token, stream[i]? = some token ∧ (token.kind = .eof ↔ i = finish)) ∧
    (∀ i < received.length, received[i]? = stream[min i finish]?) ∧
    cursor.tokens = stream.drop index ∧
    (∀ k, some (cursor.peek k) = stream[index + (k - 1)]?.or stream.getLast?) ∧
    (cursor.atEnd = true ↔ index = finish) ∧
    (∀ request, (cursor.serve request).1.received? = none → (cursor.serve request).2 = cursor) ∧
    ∃ next, stream[index]? = some next ∧ (cursor.serve .advance).1 = .taken next ∧
      ∀ kind, (cursor.serve (.expect kind)).1 = .expected
        (if next.kind = kind then .ok next else .error (.unexpected (.token kind) next)) := by
  intro stream finish received cursor index
  have begun : StandsAt stream (min 0 finish) (ofTokens tokens) := by
    rw [Nat.zero_min]
    exact standsAt_ofTokens tokens
  obtain ⟨continues, stands⟩ := begun.run requests
  rw [Nat.zero_add] at stands
  refine ⟨fun i le => ?_, fun i inside => ?_, stands.tokens, stands.peek, ?_, fun request none => ?_,
    cursor.current, stands.current, rfl, fun kind => ?_⟩
  · have inside : firstEnd (closed tokens) < (closed tokens).length := by
      rw [← tokens_ofTokens tokens]
      exact firstEnd_lt_length _
    have found := List.getElem?_eq_getElem (Nat.lt_of_le_of_lt le inside)
    exact ⟨_, found, kind_eq_eof_iff le found⟩
  · rw [continues i inside, Nat.zero_add]
  · rw [← stands.ends_iff]
    exact decide_eq_true_iff
  · rcases serve_cases cursor request with ⟨taken, _⟩ | ⟨_, stays⟩
    · rw [none] at taken
      cases taken
    · exact stays
  · rw [serve_expect]
    split <;> rfl

/-- A mark of the end stops a cursor also where tokens follow, which it still shows. -/
theorem exists_tokens_behind_mark : ∃ tokens requests number,
    let received := (ofTokens tokens).received requests
    let cursor := (ofTokens tokens).after requests
    received.map Token.kind = [.identifier, .eof, .eof] ∧ received[2]? = (closed tokens)[1]? ∧
      cursor.atEnd = true ∧ cursor.peek 2 = number ∧ number.kind = .number ∧
      (cursor.serve (.expect .number)).2 = cursor := by
  let number : Token := ⟨.number, "2", ⟨3, 1, 4⟩⟩
  let tokens : List Token := [⟨.identifier, "kg", .start⟩, .eof ⟨2, 1, 3⟩, number]
  let requests : List Request := [.expect .number, .advance, .peek 2, .expect .eof, .advance]
  obtain ⟨_, reads, _, shows, ends, stays, _⟩ := reading_exact tokens requests
  have shown : some (((ofTokens tokens).after requests).peek 2) = some number :=
    (shows 2).trans (by decide)
  exact ⟨tokens, requests, number, by decide, reads 2 (by decide), ends.mpr (by decide),
    Option.some_inj.mp shown, rfl, stays (.expect .number) (by decide)⟩

end Cursor

end Dimensional
