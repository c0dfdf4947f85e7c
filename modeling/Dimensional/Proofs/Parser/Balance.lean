import Dimensional.Proofs.Parser.Depth

/-! What queries leave of a parser that is used again and again. Those that succeed leave as many
expressions open as there were. Those that fail leave open what was open where they failed, and
every later query has as much less room. -/

namespace Dimensional.Parser

/-- What a parser can be asked for: an expression in front of further tokens, one that takes up all
that is left, or all expressions that are left. -/
inductive Query where
  | expression (grammar : Grammar)
  | whole (grammar : Grammar)
  | statements (grammar : Grammar)

/-- The state of a parser that has the same tokens and names before it and nothing open. -/
def State.fresh (state : State) : State := { state with depth := 0 }

namespace Query

def answer (setting : Setting) (state : State) : Query → Step state (List Expression)
  | expression grammar => (Parser.expression setting grammar state).map ([·])
  | whole grammar => (Parser.whole setting grammar state).map ([·])
  | statements grammar => Parser.statements setting grammar state

def call (state : State) : Query → Call
  | expression grammar => .expression grammar state
  | whole grammar => .whole grammar state
  | statements grammar => .statements grammar state

/-- A parser after one query after another, whether they succeeded or failed. -/
def after (setting : Setting) (state : State) (queries : List Query) : State :=
  queries.foldl (fun state query => (query.answer setting state).after) state

variable {vocabulary : Vocabulary} {limit extra count : Nat} {state : State} {query : Query}
  {queries : List Query} {trees : List Expression} {error : ParseError}

theorem deepens (vocabulary : Vocabulary) (query : Query) (room : state.depth + extra ≤ limit) :
    Deepens vocabulary limit extra [query.call state]
      (query.answer ⟨vocabulary, some limit⟩ (state.deeper extra))
      (query.answer (.unlimited vocabulary) state) := by
  cases query with
  | expression grammar => exact .map ((Parser.deepens vocabulary limit extra).1 grammar state room)
  | whole grammar => exact .map (deepens_whole room)
  | statements grammar => exact deepens_statements vocabulary grammar state room

theorem freely_call : (query.call state).freely vocabulary =
    (query.answer (.unlimited vocabulary) state).ending := by
  have plain (before : State) (step : Step before Expression) :
      step.ending = (step.map ([·])).ending := by
    obtain ⟨result, after, le⟩ := step
    cases result <;> rfl
  cases query with
  | expression grammar => exact plain _ _
  | whole grammar => exact plain _ _
  | statements grammar => rfl

theorem state_call : (query.call state).state = state := by
  cases query <;> rfl

/-- Only an expression can exceed the limit. -/
theorem exceeds_iff (vocabulary : Vocabulary) (query : Query) (fresh : state.depth = 0)
    (room : extra ≤ limit) :
    (query.call state).Exceeds vocabulary (limit - extra) ↔
      ∃ count, 0 < count ∧ (query.call state).Opens vocabulary count ∧ limit < extra + count := by
  unfold Call.Exceeds
  rw [state_call, fresh]
  constructor
  · rintro ⟨count, opens, more⟩
    exact ⟨count, by omega, opens, by omega⟩
  · rintro ⟨count, _, opens, more⟩
    exact ⟨count, opens, by omega⟩

section Beyond

variable (vocabulary : Vocabulary) (grammar : Grammar)

/-- Where too many expressions are open already, none can be opened. -/
theorem expression_beyond (full : limit ≤ state.depth) :
    (Parser.expression ⟨vocabulary, some limit⟩ grammar state).result = .error (.tooDeep limit) ∧
      (Parser.expression ⟨vocabulary, some limit⟩ grammar state).after.depth = state.depth + 1 := by
  obtain ⟨le, entered⟩ := State.enter_of_full full
  rw [Parser.expression, entered]
  exact ⟨rfl, rfl⟩

theorem andThen_of_error {before : State} {step : Step before α}
    {next : α → (later : State) → later.remaining ≤ before.remaining → Step later β}
    (failed : step.result = .error error) :
    (step.andThen next).result = .error error ∧ (step.andThen next).after = step.after := by
  obtain ⟨result, after, le⟩ := step
  cases failed
  exact ⟨rfl, rfl⟩

theorem whole_beyond (full : limit ≤ state.depth) :
    (Parser.whole ⟨vocabulary, some limit⟩ grammar state).result = .error (.tooDeep limit) ∧
      (Parser.whole ⟨vocabulary, some limit⟩ grammar state).after.depth = state.depth + 1 := by
  have inside : limit ≤ (state.withNumbering .empty).depth := full
  obtain ⟨failed, left⟩ := expression_beyond vocabulary grammar inside
  obtain ⟨result, after⟩ := andThen_of_error failed
  exact ⟨result, (congrArg State.depth after).trans left⟩

variable {vocabulary grammar}

theorem opens_statements_atEnd (ends : state.cursor.atEnd = true)
    (opens : (Call.statements grammar state).Opens vocabulary count) : count = 0 := by
  cases opens with
  | itself => rfl
  | within made _ =>
    rw [Call.calls, if_pos ends] at made
    cases made

theorem opens_statements_semicolon (isSemicolon : state.kind = .semicolon) :
    (Call.statements grammar state).Opens vocabulary count ↔
      count = 0 ∨ (Call.statements grammar state.advance).Opens vocabulary count := by
  have calls : (Call.statements grammar state).calls vocabulary =
      [Call.statements grammar state.advance] :=
    (if_neg (State.not_atEnd_of_semicolon isSemicolon)).trans (if_pos isSemicolon)
  constructor
  · intro opens
    cases opens with
    | itself => exact .inl rfl
    | @within _ inner inside made opens =>
      rw [calls] at made
      obtain rfl := List.mem_singleton.mp made
      refine .inr ?_
      change (Call.statements grammar state.advance).Opens vocabulary (0 + inside)
      rwa [Nat.zero_add]
  · rintro (rfl | opens)
    · exact .itself _
    · rw [← Nat.zero_add count]
      exact .within (by rw [calls]; exact List.mem_singleton.mpr rfl) opens

/-- Semicolons can still be passed. -/
theorem statements_beyond (vocabulary : Vocabulary) (grammar : Grammar) (state : State)
    (fresh : state.depth = 0) (full : limit ≤ extra) :
    ((∃ count, 0 < count ∧ (Call.statements grammar state).Opens vocabulary count) →
      (Parser.statements ⟨vocabulary, some limit⟩ grammar (state.deeper extra)).result =
          .error (.tooDeep limit) ∧
        (Parser.statements ⟨vocabulary, some limit⟩ grammar (state.deeper extra)).after.depth =
          extra + 1) ∧
    ((∀ count, (Call.statements grammar state).Opens vocabulary count → count = 0) →
      (Parser.statements ⟨vocabulary, some limit⟩ grammar (state.deeper extra)).result =
          (Parser.statements (.unlimited vocabulary) grammar state).result ∧
        (Parser.statements ⟨vocabulary, some limit⟩ grammar (state.deeper extra)).after =
          (Parser.statements (.unlimited vocabulary) grammar state).after.deeper extra) := by
  induction state using statements_induction with
  | atEnd state ends =>
    have deeper : (state.deeper extra).cursor.atEnd = true := ends
    rw [statements_eq_done deeper, statements_eq_done ends]
    constructor
    · rintro ⟨count, positive, opens⟩
      exact absurd (opens_statements_atEnd ends opens) (Nat.ne_of_gt positive)
    · exact fun _ => ⟨rfl, rfl⟩
  | semicolon state isSemicolon ih =>
    have deeper : (state.deeper extra).kind = .semicolon := isSemicolon
    rw [statements_eq_since deeper, statements_eq_since isSemicolon]
    obtain ⟨refused, same⟩ := ih fresh
    constructor
    · rintro ⟨count, positive, opens⟩
      have later := (opens_statements_semicolon isSemicolon).mp opens
      exact refused ⟨count, positive, later.resolve_left (Nat.ne_of_gt positive)⟩
    · intro none
      refine same fun count opens => none count ?_
      exact (opens_statements_semicolon isSemicolon).mpr (.inr opens)
  | expression state goesOn ih =>
    have deeper : (state.deeper extra).kind.delimits = false := goesOn
    have made : Call.expression grammar (state.withNumbering .empty) ∈
        (Call.statements grammar state).calls vocabulary := by
      rw [Call.calls, if_neg (State.not_atEnd goesOn), if_neg (State.kind_ne_semicolon goesOn)]
      exact List.mem_cons_self
    have opens : (Call.statements grammar state).Opens vocabulary (0 + 1) :=
      .within made (.itself _)
    constructor
    · intro _
      have depth : ((state.deeper extra).withNumbering .empty).depth = extra := by
        change state.depth + extra = extra
        rw [fresh, Nat.zero_add]
      obtain ⟨failed, left⟩ := expression_beyond vocabulary grammar (full.trans_eq depth.symm)
      have refused : ((state.deeper extra).apart
          (Parser.expression ⟨vocabulary, some limit⟩ grammar)).result = .error (.tooDeep limit) :=
        failed
      obtain ⟨result, after⟩ := andThen_of_error refused
      rw [statements_eq_andThen deeper]
      refine ⟨result, ?_⟩
      calc _
        _ = _ := congrArg State.depth after
        _ = _ := left
        _ = extra + 1 := congrArg (· + 1) depth
    · exact fun none => absurd (none _ opens) Nat.one_ne_zero

end Beyond

/-- A query behind open expressions: refused where it opens more than there is room for, and else as
it were on a fresh parser without a limit. -/
theorem answer_deeper (vocabulary : Vocabulary) (limit extra : Nat) (query : Query)
    (fresh : state.depth = 0) :
    let here := query.answer ⟨vocabulary, some limit⟩ (state.deeper extra)
    let free := query.answer (.unlimited vocabulary) state
    ((∃ count, 0 < count ∧ (query.call state).Opens vocabulary count ∧ limit < extra + count) →
      here.result = .error (.tooDeep limit) ∧ here.after.depth = max extra limit + 1) ∧
    ((∀ count, 0 < count → (query.call state).Opens vocabulary count → extra + count ≤ limit) →
      here.result = free.result ∧ here.after = free.after.deeper extra) := by
  intro here free
  rcases Nat.lt_or_ge limit extra with beyond | room
  · have full : limit ≤ extra := Nat.le_of_lt beyond
    rw [Nat.max_eq_left full]
    have depth : (state.deeper extra).depth = extra := by
      change state.depth + extra = extra
      rw [fresh, Nat.zero_add]
    have deeper : limit ≤ (state.deeper extra).depth := full.trans_eq depth.symm
    have opens (count : Nat) (positive : 0 < count)
        (opens : (query.call state).Opens vocabulary count)
        (fits : ∀ count, 0 < count → (query.call state).Opens vocabulary count →
          extra + count ≤ limit) : False := by
      have := fits count positive opens
      omega
    cases query with
    | expression grammar =>
      obtain ⟨failed, left⟩ := expression_beyond vocabulary grammar deeper
      refine ⟨fun _ => ⟨?_, left.trans (congrArg (· + 1) depth)⟩, fun fits => ?_⟩
      · exact congrArg (Except.map ([·])) failed
      · exact (opens 1 Nat.one_pos (.itself _) fits).elim
    | whole grammar =>
      obtain ⟨failed, left⟩ := whole_beyond vocabulary grammar deeper
      refine ⟨fun _ => ⟨?_, left.trans (congrArg (· + 1) depth)⟩, fun fits => ?_⟩
      · exact congrArg (Except.map ([·])) failed
      · exact (opens (0 + 1) Nat.one_pos (.within List.mem_cons_self (.itself _)) fits).elim
    | statements grammar =>
      obtain ⟨refused, same⟩ := statements_beyond vocabulary grammar state fresh full
      refine ⟨fun ⟨count, positive, opens, _⟩ => refused ⟨count, positive, opens⟩, fun fits => ?_⟩
      refine same fun count opened => ?_
      by_contra some
      exact opens count (Nat.pos_of_ne_zero some) opened fits
  · have inside : state.depth + extra ≤ limit := by rwa [fresh, Nat.zero_add]
    have deepens := query.deepens vocabulary inside
    have exceeds := exceeds_iff vocabulary query fresh room
    constructor
    · intro more
      rw [Nat.max_eq_right room]
      exact deepens.deep ⟨_, List.mem_cons_self, exceeds.mpr more⟩
    · intro fits
      refine deepens.shallow fun call member => ?_
      obtain rfl := List.mem_singleton.mp member
      rw [exceeds]
      rintro ⟨count, positive, opens, more⟩
      exact absurd (fits count positive opens) (Nat.not_le_of_lt more)

/-- A query that succeeds leaves as many expressions open as there were. -/
theorem depth_of_answer {setting : Setting}
    (succeeds : (query.answer setting state).result = .ok trees) :
    (query.answer setting state).after.depth = state.depth := by
  have finishes {before : State} {step : Step before Expression}
      (succeeds : (step.map ([·])).result = .ok trees) :
      step.outcome.map Prod.snd = .ok step.after := by
    obtain ⟨result, after, le⟩ := step
    cases result with
    | error => cases succeeds
    | ok tree => rfl
  cases query with
  | expression grammar =>
    have finished : (Call.expression grammar state).finish setting = .ok _ := finishes succeeds
    exact Call.depth_of_finish finished
  | whole grammar =>
    have finished : (Call.whole grammar state).finish setting = .ok _ := finishes succeeds
    exact Call.depth_of_finish finished
  | statements grammar =>
    exact Call.depth_of_statements (outcome_eq_ok.mpr ⟨succeeds, rfl⟩)

/-- What fails leaves open what was opened for it up to there. -/
theorem fails_iff_breaks :
    (∃ error, (query.answer (.unlimited vocabulary) state).result = .error error) ↔
      ∃ count, (query.call state).Breaks vocabulary count := by
  constructor
  · rintro ⟨error, failed⟩
    have fails : ((query.call state).freely vocabulary).1 = .error error := by
      rw [freely_call]
      exact Step.ending_eq_error.mpr failed
    exact Call.exists_breaks _ fails
  · rintro ⟨count, breaks⟩
    obtain ⟨error, failed⟩ := breaks.fails
    rw [freely_call] at failed
    exact ⟨error, Step.ending_eq_error.mp failed⟩

theorem depth_of_breaks (breaks : (query.call state).Breaks vocabulary count) :
    (query.answer (.unlimited vocabulary) state).after.depth = state.depth + count := by
  have depth := breaks.depth_eq
  rw [freely_call, state_call] at depth
  exact depth

theorem deeper_fresh (state : State) : state.fresh.deeper state.depth = state := by
  simp [State.fresh, State.deeper]

/-- How a query is answered, told from what a fresh parser without a limit does with it. -/
theorem answer_eq (vocabulary : Vocabulary) (query : Query) (state : State) :
    let here := query.answer (.standard vocabulary) state
    let free := query.answer (.unlimited vocabulary) state.fresh
    ((∃ count, 0 < count ∧ (query.call state.fresh).Opens vocabulary count ∧
        nestingLimit < state.depth + count) →
      here.result = .error (.tooDeep nestingLimit) ∧
        here.after.depth = max state.depth nestingLimit + 1) ∧
    ((∀ count, 0 < count → (query.call state.fresh).Opens vocabulary count →
        state.depth + count ≤ nestingLimit) →
      here.result = free.result ∧ here.after = free.after.deeper state.depth) := by
  have fresh : state.fresh.depth = 0 := rfl
  have answered := answer_deeper vocabulary nestingLimit state.depth query fresh
  rwa [deeper_fresh] at answered

/-- One query never closes what was open before. -/
theorem depth_le_answer : state.depth ≤ (query.answer (.standard vocabulary) state).after.depth := by
  obtain ⟨deep, fits⟩ := answer_eq vocabulary query state
  by_cases more : ∃ count, 0 < count ∧ (query.call state.fresh).Opens vocabulary count ∧
      nestingLimit < state.depth + count
  · have left := (deep more).2
    omega
  · push Not at more
    obtain ⟨_, after⟩ := fits more
    rw [after]
    exact Nat.le_add_left _ _

/-- All queries of a series succeed. -/
def AllSucceed (setting : Setting) : State → List Query → Prop
  | _, [] => True
  | state, query :: queries =>
    (∃ trees, (query.answer setting state).result = .ok trees) ∧
      AllSucceed setting (query.answer setting state).after queries

/-- Only failures leave expressions open, and nothing closes them again. -/
theorem depth_of_after :
    state.depth ≤ (after (.standard vocabulary) state queries).depth ∧
      (AllSucceed (.standard vocabulary) state queries →
        (after (.standard vocabulary) state queries).depth = state.depth) := by
  induction queries generalizing state with
  | nil => exact ⟨Nat.le_refl _, fun _ => rfl⟩
  | cons query queries ih =>
    obtain ⟨le, same⟩ := @ih (query.answer (.standard vocabulary) state).after
    refine ⟨depth_le_answer.trans le, ?_⟩
    rintro ⟨⟨trees, succeeds⟩, others⟩
    exact (same others).trans (depth_of_answer succeeds)

/-- What a parser answers after any series of queries, and how many expressions it leaves open. As
long as all queries have succeeded, none is open but those that were at the start. What was left open
takes room from all later queries: one for which there is room is answered as by a fresh parser, and
fails or succeeds with as many expressions open as that one besides; all others are refused. -/
theorem balance_exact (vocabulary : Vocabulary) (start : State) (queries : List Query)
    (query : Query) :
    let state := after (.standard vocabulary) start queries
    let call := query.call state.fresh
    let here := query.answer (.standard vocabulary) state
    (start.depth ≤ state.depth ∧
      (AllSucceed (.standard vocabulary) start queries → state.depth = start.depth)) ∧
    (∀ trees, here.result = .ok trees → here.after.depth = state.depth) ∧
    ((∀ count, 0 < count → call.Opens vocabulary count → state.depth + count ≤ nestingLimit) →
      here.result = (query.answer (.standard vocabulary) state.fresh).result ∧
      here.result = (query.answer (.unlimited vocabulary) state.fresh).result ∧
      ((∃ error, here.result = .error error) ↔ ∃ count, call.Breaks vocabulary count) ∧
      ∀ count, call.Breaks vocabulary count → here.after.depth = state.depth + count) ∧
    ∀ count, 0 < count → call.Opens vocabulary count → nestingLimit < state.depth + count →
      here.result = .error (.tooDeep nestingLimit) ∧
        here.after.depth = max state.depth nestingLimit + 1 := by
  intro state call here
  obtain ⟨deep, fits⟩ := answer_eq vocabulary query state
  refine ⟨depth_of_after, fun trees succeeds => depth_of_answer succeeds, fun room => ?_,
    fun count positive opens more => deep ⟨count, positive, opens, more⟩⟩
  obtain ⟨result, reached⟩ := fits room
  have freshRoom : ∀ count, 0 < count → (query.call state.fresh.fresh).Opens vocabulary count →
      state.fresh.depth + count ≤ nestingLimit := by
    intro count positive opens
    have := room count positive opens
    change 0 + count ≤ nestingLimit
    omega
  have onFresh := ((answer_eq vocabulary query state.fresh).2 freshRoom).1
  refine ⟨result.trans onFresh.symm, result, ?_, fun count breaks => ?_⟩
  · rw [← fails_iff_breaks]
    exact ⟨fun ⟨error, failed⟩ => ⟨error, result.symm.trans failed⟩,
      fun ⟨error, failed⟩ => ⟨error, result.trans failed⟩⟩
  · have left := depth_of_breaks breaks
    calc here.after.depth
      _ = (query.answer (.unlimited vocabulary) state.fresh).after.depth + state.depth :=
        congrArg State.depth reached
      _ = 0 + count + state.depth := congrArg (· + state.depth) left
      _ = state.depth + count := by omega

/-- An open parenthesis in front of a semicolon, many times over: the failed query leaves all of them
open, and the next one is refused although a fresh parser reads the number behind the semicolon. -/
theorem exists_answer_spoiled :
    let tokens : List Token :=
      List.replicate 199 ⟨.openParen, "(", .start⟩ ++
        [⟨.semicolon, ";", .start⟩, ⟨.number, "1", .start⟩]
    let setting := Setting.standard Scope.si.vocabulary
    let start := State.ofCursor (.ofTokens tokens)
    let failed := (Query.expression .quantity).answer setting start
    let next := Query.statements .quantity
    start.depth = 0 ∧ failed.result.toOption = none ∧ failed.after.depth = 200 ∧
      (next.answer setting failed.after).result.error? = some (.tooDeep nestingLimit) ∧
      (next.answer setting failed.after.fresh).result.toOption.isSome := by
  decide +kernel

end Query

end Dimensional.Parser
