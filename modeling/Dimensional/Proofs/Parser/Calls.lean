import Dimensional.Proofs.Parser.Statements

/-! The calls of a parser without a limit: which calls each of its functions makes, and how many
expressions they open inside one another. -/

namespace Dimensional.Parser

theorem Derived.depth_eq {setting : Setting} {carried : category.Carried} {before after : State}
    {value : category.Evaluated} (derived : Derived setting category carried before value after) :
    after.depth = before.depth := by
  obtain ⟨_, _, _, same, _⟩ := derived
  exact same

theorem whole_outcome {setting : Setting} {grammar : Grammar} {state : State} :
    (whole setting grammar state).outcome =
      (do
        let (read, later) ← (expression setting grammar (state.withNumbering .empty)).outcome
        if later.cursor.atEnd then .ok (read, later.withNumbering state.numbering)
        else .error (.unexpected (.token .eof) later.current)) := by
  unfold whole
  rw [State.apart_outcome, Step.outcome_andThen (f := fun reached =>
    if reached.2.cursor.atEnd then .ok reached
    else .error (.unexpected (.token .eof) reached.2.current))]
  · cases (expression setting grammar (state.withNumbering .empty)).outcome with
    | error error => rfl
    | ok reached =>
      rw [Except.ok_bind, Except.ok_bind]
      dsimp only
      split <;> rfl
  · intro read later _
    dsimp only
    split <;> rfl

/-- No limit on how many expressions may be open. -/
def Setting.unlimited (vocabulary : Vocabulary) : Setting := ⟨vocabulary, none⟩

/-- The calls of the parser's functions. -/
inductive Call where
  | expression (grammar : Grammar) (state : State)
  | sumRest (grammar : Grammar) (sum : Worth) (state : State)
  | term (grammar : Grammar) (state : State)
  | productRest (grammar : Grammar) (afterLiteral : Bool) (chain : Chain) (state : State)
  | factor (grammar : Grammar) (state : State)
  | atom (grammar : Grammar) (state : State)
  | exponent (state : State)
  | whole (grammar : Grammar) (state : State)
  | statements (grammar : Grammar) (state : State)

namespace Call

def state : Call → State
  | expression _ state | sumRest _ _ state | term _ state | productRest _ _ _ state
  | factor _ state | atom _ state | exponent state | whole _ state | statements _ state => state

/-- The state in which a call that succeeds ends. -/
def finish (setting : Setting) : Call → Except ParseError State
  | expression grammar state => (Parser.expression setting grammar state).outcome.map Prod.snd
  | sumRest grammar sum state => (Parser.sumRest setting grammar sum state).outcome.map Prod.snd
  | term grammar state => (Parser.term setting grammar state).outcome.map Prod.snd
  | productRest grammar afterLiteral chain state =>
    (Parser.productRest setting grammar afterLiteral chain state).outcome.map Prod.snd
  | factor grammar state => (Parser.factor setting grammar state).outcome.map Prod.snd
  | atom grammar state => (Parser.atom setting grammar state).outcome.map Prod.snd
  | exponent state => (Parser.exponent setting state).outcome.map Prod.snd
  | whole grammar state => (Parser.whole setting grammar state).outcome.map Prod.snd
  | statements grammar state => (Parser.statements setting grammar state).outcome.map Prod.snd

/-- How many expressions a call opens itself. -/
def own : Call → Nat
  | expression _ _ => 1
  | _ => 0

/-- The calls that follow where a computation succeeds. -/
def after (x : Except ε α) (next : α → List Call) : List Call :=
  match x with
  | .ok a => next a
  | .error _ => []

variable (vocabulary : Vocabulary)

/-- A call, and one that follows it where an operation takes in the value of the first. -/
def chained (first : Call) (x : Except ε (α × State)) (operate : α → Except δ β)
    (next : α → β → State → Call) : List Call :=
  first :: after x fun read => after (operate read.1) fun result => [next read.1 result read.2]

/-- The calls that a term makes behind its sign. -/
def ofTerm (grammar : Grammar) (negated : Bool) (state : State) : List Call :=
  chained (factor grammar state) (Parser.factor (.unlimited vocabulary) grammar state).outcome
    (fun first => Chain.ofFactor grammar negated first.root.worth)
    fun first => productRest grammar (isLiteral first)

/-- The calls that are made in a call without a limit, one after another. -/
def calls : Call → List Call
  | expression grammar state =>
    if grammar.opens state.opened.kind then
      term grammar state.opened ::
        after (Parser.term (.unlimited vocabulary) grammar state.opened).outcome fun first =>
          [sumRest grammar first.1.root.worth first.2]
    else []
  | sumRest grammar sum state =>
    match AddOp.ofKind? state.kind with
    | none => []
    | some op =>
      chained (term grammar state.advance)
        (Parser.term (.unlimited vocabulary) grammar state.advance).outcome
        (fun next => sum.add op next.root.worth) fun _ => sumRest grammar
  | term grammar state =>
    if state.kind = .minus then ofTerm vocabulary grammar true state.advance
    else ofTerm vocabulary grammar false state
  | productRest grammar afterLiteral chain state =>
    match MulOp.ofKind? state.kind with
    | some op =>
      chained (factor grammar state.advance)
        (Parser.factor (.unlimited vocabulary) grammar state.advance).outcome
        (fun next => chain.apply op next.root.worth)
        fun next => productRest grammar (isLiteral next)
    | none =>
      if afterLiteral = true ∧ multipliesSilently vocabulary grammar state then
        chained (factor grammar state)
          (Parser.factor (.unlimited vocabulary) grammar state).outcome
          (fun next => chain.apply .times next.root.worth) fun _ => productRest grammar false
      else []
  | factor grammar state =>
    atom grammar state ::
      after (Parser.atom (.unlimited vocabulary) grammar state).outcome fun base =>
        if base.2.kind = .power then [exponent base.2.advance] else []
  | atom grammar state =>
    match grammar.opening? state.kind with
    | some .parenthesis => [expression grammar state.advance]
    | some (.vector _) =>
      after (state.advance.expect .openParen).outcome fun opened =>
        expression .quantity opened.2 ::
          after (Parser.expression (.unlimited vocabulary) .quantity opened.2).outcome fun left =>
            after (left.2.expect .comma).outcome fun separated =>
              [expression .quantity separated.2]
    | some .name | some .literal | none => []
  | exponent state =>
    if state.kind = .openParen then [expression .numeric state.advance] else []
  | whole grammar state => [expression grammar (state.withNumbering .empty)]
  | statements grammar state =>
    if state.cursor.atEnd then []
    else if state.kind = .semicolon then [statements grammar state.advance]
    else
      expression grammar (state.withNumbering .empty) ::
        after (state.apart (Parser.expression (.unlimited vocabulary) grammar)).outcome fun read =>
          if read.2.kind.delimits then [statements grammar read.2] else []

/-- So many expressions are open at some time in a call without a limit, those counted that it opens
itself and in the calls that it makes. -/
inductive Opens : Call → Nat → Prop where
  | itself (call : Call) : Opens call call.own
  | within {call inner : Call} {count : Nat} (made : inner ∈ call.calls vocabulary)
      (opens : Opens inner count) : Opens call (call.own + count)

/-- More expressions than a limit are open at some time, those counted that were open before. -/
def Exceeds (limit : Nat) (call : Call) : Prop :=
  ∃ count, call.Opens vocabulary count ∧ limit < call.state.depth + count

variable {vocabulary} {setting : Setting} {grammar : Grammar} {reached : State} {limit : Nat}

theorem mem_after {x : Except ε α} {next : α → List Call} {call : Call} :
    call ∈ after x next ↔ ∃ a, x = .ok a ∧ call ∈ next a := by
  cases x with
  | error error => exact ⟨nofun, nofun⟩
  | ok a =>
    constructor
    · exact fun member => ⟨a, rfl, member⟩
    · rintro ⟨_, same, member⟩
      cases same
      exact member

/-- What is read as one of several leaves as many expressions open as there were. -/
theorem depth_of_apart {state : State} {tree : Expression}
    (h : (state.apart (Parser.expression setting grammar)).outcome = .ok (tree, reached)) :
    reached.depth = state.depth := by
  rw [State.apart_outcome] at h
  obtain ⟨⟨_, after⟩, outcome, same⟩ := Except.map_eq_ok.mp h
  obtain ⟨rfl, rfl⟩ := Prod.mk.inj same
  exact ((recognized setting).1 _ _ _ _ outcome).depth_eq

theorem depth_of_whole {state : State} {tree : Expression}
    (h : (Parser.whole setting grammar state).outcome = .ok (tree, reached)) :
    reached.depth = state.depth := by
  rw [whole_outcome] at h
  obtain ⟨⟨read, later⟩, outcome, h⟩ := Except.bind_eq_ok.mp h
  dsimp only at h
  split at h
  · cases h
    exact ((recognized setting).1 _ _ _ _ outcome).depth_eq
  · cases h

theorem depth_of_statements {state : State} {trees : List Expression}
    (h : (Parser.statements setting grammar state).outcome = .ok (trees, reached)) :
    reached.depth = state.depth := by
  induction state using statements_induction generalizing trees with
  | atEnd state ends =>
    rw [statements_of_end ends] at h
    cases h
    rfl
  | semicolon state isSemicolon ih =>
    rw [statements_of_semicolon isSemicolon] at h
    exact ih h
  | expression state goesOn ih =>
    rw [statements_of_expression goesOn] at h
    obtain ⟨⟨tree, later⟩, read, h⟩ := Except.bind_eq_ok.mp h
    dsimp only at h
    split at h
    · rename_i stops
      obtain ⟨⟨others, last⟩, more, h⟩ := Except.bind_eq_ok.mp h
      cases h
      calc last.depth
        _ = later.depth := ih later (Step.remaining_le_of_outcome read) stops more
        _ = state.depth := depth_of_apart read
    · cases h

/-- A call that succeeds leaves no more expressions open than there were. -/
theorem depth_of_finish {call : Call} (h : call.finish setting = .ok reached) :
    reached.depth = call.state.depth := by
  obtain ⟨expression, sumRest, term, productRest, factor, exponent, atom⟩ := recognized setting
  cases call with
  | expression grammar state =>
    obtain ⟨_, outcome, rfl⟩ := Except.map_eq_ok.mp h
    exact (expression _ _ _ _ outcome).depth_eq
  | sumRest grammar sum state =>
    obtain ⟨_, outcome, rfl⟩ := Except.map_eq_ok.mp h
    exact (sumRest _ _ _ _ _ outcome).depth_eq
  | term grammar state =>
    obtain ⟨_, outcome, rfl⟩ := Except.map_eq_ok.mp h
    exact (term _ _ _ _ outcome).depth_eq
  | productRest grammar afterLiteral chain state =>
    obtain ⟨_, outcome, rfl⟩ := Except.map_eq_ok.mp h
    exact (productRest _ _ _ _ _ _ outcome).depth_eq
  | factor grammar state =>
    obtain ⟨_, outcome, rfl⟩ := Except.map_eq_ok.mp h
    exact (factor _ _ _ _ outcome).depth_eq
  | atom grammar state =>
    obtain ⟨_, outcome, rfl⟩ := Except.map_eq_ok.mp h
    exact (atom _ _ _ _ outcome).depth_eq
  | exponent state =>
    obtain ⟨_, outcome, rfl⟩ := Except.map_eq_ok.mp h
    exact (exponent _ _ _ outcome).depth_eq
  | whole grammar state =>
    obtain ⟨_, outcome, rfl⟩ := Except.map_eq_ok.mp h
    exact depth_of_whole outcome
  | statements grammar state =>
    obtain ⟨_, outcome, rfl⟩ := Except.map_eq_ok.mp h
    exact depth_of_statements outcome

theorem depth_of_mem_chained {first inner : Call} {x : Except ε (α × State)}
    {operate : α → Except δ β} {next : α → β → State → Call} {depth : Nat}
    (made : inner ∈ chained first x operate next) (begun : first.state.depth = depth)
    (kept : ∀ value later, x = .ok (value, later) → later.depth = depth)
    (goesOn : ∀ value result later, (next value result later).state = later) :
    inner.state.depth = depth := by
  rcases List.mem_cons.mp made with rfl | made
  · exact begun
  · obtain ⟨⟨value, later⟩, read, made⟩ := mem_after.mp made
    obtain ⟨result, _, single⟩ := mem_after.mp made
    obtain rfl := List.mem_singleton.mp single
    rw [goesOn]
    exact kept value later read

/-- The calls that are made have the expressions open that their call has opened. -/
theorem depth_of_mem_calls {call inner : Call} (made : inner ∈ call.calls vocabulary) :
    inner.state.depth = call.state.depth + call.own := by
  obtain ⟨expression, _, term, _, factor, _, atom⟩ := recognized (.unlimited vocabulary)
  cases call with
  | expression grammar state =>
    rw [calls] at made
    split at made
    · rcases List.mem_cons.mp made with rfl | later
      · rfl
      · obtain ⟨_, read, single⟩ := mem_after.mp later
        obtain rfl := List.mem_singleton.mp single
        exact (term _ _ _ _ read).depth_eq
    · cases made
  | sumRest grammar sum state =>
    rw [calls] at made
    split at made
    · cases made
    · exact depth_of_mem_chained made rfl (fun _ _ read => (term _ _ _ _ read).depth_eq)
        fun _ _ _ => rfl
  | term grammar state =>
    rw [calls] at made
    split at made
    · exact depth_of_mem_chained made rfl (fun _ _ read => (factor _ _ _ _ read).depth_eq)
        fun _ _ _ => rfl
    · exact depth_of_mem_chained made rfl (fun _ _ read => (factor _ _ _ _ read).depth_eq)
        fun _ _ _ => rfl
  | productRest grammar afterLiteral chain state =>
    rw [calls] at made
    split at made
    · exact depth_of_mem_chained made rfl (fun _ _ read => (factor _ _ _ _ read).depth_eq)
        fun _ _ _ => rfl
    · split at made
      · exact depth_of_mem_chained made rfl (fun _ _ read => (factor _ _ _ _ read).depth_eq)
          fun _ _ _ => rfl
      · cases made
  | factor grammar state =>
    rcases List.mem_cons.mp made with rfl | later
    · rfl
    · obtain ⟨base, read, later⟩ := mem_after.mp later
      split at later
      · obtain rfl := List.mem_singleton.mp later
        exact (atom _ _ _ _ read).depth_eq
      · cases later
  | atom grammar state =>
    rw [calls] at made
    split at made
    · obtain rfl := List.mem_singleton.mp made
      rfl
    · obtain ⟨opened, started, made⟩ := mem_after.mp made
      obtain ⟨_, _, opening⟩ := State.expect_eq_ok started
      have depth : opened.2.depth = state.depth := (congrArg State.depth opening :)
      rcases List.mem_cons.mp made with rfl | later
      · exact depth
      · obtain ⟨left, read, later⟩ := mem_after.mp later
        obtain ⟨separated, parted, single⟩ := mem_after.mp later
        obtain ⟨_, _, comma⟩ := State.expect_eq_ok parted
        obtain rfl := List.mem_singleton.mp single
        calc separated.2.depth
          _ = left.2.depth := (congrArg State.depth comma :)
          _ = opened.2.depth := (expression _ _ _ _ read).depth_eq
          _ = state.depth := depth
    · cases made
    · cases made
    · cases made
  | exponent state =>
    rw [calls] at made
    split at made
    · obtain rfl := List.mem_singleton.mp made
      rfl
    · cases made
  | whole grammar state =>
    obtain rfl := List.mem_singleton.mp made
    rfl
  | statements grammar state =>
    rw [calls] at made
    split at made
    · cases made
    · split at made
      · obtain rfl := List.mem_singleton.mp made
        rfl
      · rcases List.mem_cons.mp made with rfl | later
        · rfl
        · obtain ⟨read, outcome, later⟩ := mem_after.mp later
          split at later
          · obtain rfl := List.mem_singleton.mp later
            exact depth_of_apart outcome
          · cases later

/-- The limit is exceeded in a call itself or in one that it makes. -/
theorem exceeds_iff {call : Call} : call.Exceeds vocabulary limit ↔
    limit < call.state.depth + call.own ∨
      ∃ inner ∈ call.calls vocabulary, inner.Exceeds vocabulary limit := by
  constructor
  · rintro ⟨count, opens, more⟩
    cases opens with
    | itself => exact .inl more
    | @within _ inner count made opens =>
      refine .inr ⟨inner, made, count, opens, ?_⟩
      rwa [depth_of_mem_calls made, Nat.add_assoc]
  · rintro (more | ⟨inner, made, count, opens, more⟩)
    · exact ⟨_, .itself call, more⟩
    · refine ⟨_, .within made opens, ?_⟩
      rwa [depth_of_mem_calls made, Nat.add_assoc] at more

end Call

end Dimensional.Parser
