import Dimensional.Proofs.Parser.Endings

/-! A parser in which some expressions are open already is a fresh one that may open as many less. -/

namespace Dimensional.Parser

variable {α β : Type} {vocabulary : Vocabulary} {grammar : Grammar} {limit extra : Nat}
  {state later : State}

/-- The state with some more expressions open. -/
def State.deeper (extra : Nat) (state : State) : State :=
  { state with depth := state.depth + extra }

theorem State.opened_deeper : (state.deeper extra).opened = state.opened.deeper extra := by
  simp only [opened, deeper, State.mk.injEq, true_and, and_true]
  omega

theorem State.closed_deeper (opened : 0 < state.depth) :
    (state.deeper extra).closed = state.closed.deeper extra := by
  simp only [closed, deeper, State.mk.injEq, true_and, and_true]
  omega

/-- With a limit and some expressions open before, a step fails as too deep if one of the calls made
in it exceeds what is left of the limit. Else it comes to the same as without both. -/
structure Deepens (vocabulary : Vocabulary) (limit extra : Nat) (calls : List Call)
    (here : Step (state.deeper extra) α) (free : Step state α) : Prop where
  deep : (∃ call ∈ calls, call.Exceeds vocabulary (limit - extra)) →
    here.result = .error (.tooDeep limit) ∧ here.after.depth = limit + 1
  shallow : (∀ call ∈ calls, ¬ call.Exceeds vocabulary (limit - extra)) →
    here.result = free.result ∧ here.after = free.after.deeper extra

namespace Deepens

variable {calls : List Call} {here : Step (state.deeper extra) α} {free : Step state α}

/-- A step that makes no calls. -/
theorem same (result : here.result = free.result) (after : here.after = free.after.deeper extra) :
    Deepens vocabulary limit extra [] here free :=
  ⟨fun ⟨_, member, _⟩ => absurd member List.not_mem_nil, fun _ => ⟨result, after⟩⟩

theorem map {f : α → β} (deepens : Deepens vocabulary limit extra calls here free) :
    Deepens vocabulary limit extra calls (here.map f) (free.map f) := by
  constructor
  · intro exceeded
    obtain ⟨result, depth⟩ := deepens.deep exceeded
    exact ⟨by rw [Step.map, result]; rfl, depth⟩
  · intro fits
    obtain ⟨result, after⟩ := deepens.shallow fits
    exact ⟨by rw [Step.map, Step.map, result], after⟩

/-- What follows the next token. -/
theorem advance {here : Step (state.advance.deeper extra) α} {free : Step state.advance α}
    (deepens : Deepens vocabulary limit extra calls here free) :
    Deepens vocabulary limit extra calls
      (.since (state.deeper extra).remaining_advance_le here : Step (state.deeper extra) α)
      (.since state.remaining_advance_le free) :=
  ⟨deepens.deep, deepens.shallow⟩

theorem andThen
    {next : α → (later : State) → later.remaining ≤ (state.deeper extra).remaining → Step later β}
    {twin : α → (later : State) → later.remaining ≤ state.remaining → Step later β}
    {more : α × State → List Call} (first : Deepens vocabulary limit extra calls here free)
    (rest : ∀ value later le le', free.outcome = .ok (value, later) →
      Deepens vocabulary limit extra (more (value, later)) (next value (later.deeper extra) le)
        (twin value later le')) :
    Deepens vocabulary limit extra (calls ++ Call.after free.outcome more) (here.andThen next)
      (free.andThen twin) := by
  by_cases refused : ∃ call ∈ calls, call.Exceeds vocabulary (limit - extra)
  · obtain ⟨result, depth⟩ := first.deep refused
    obtain ⟨_, after, le⟩ := here
    obtain rfl := result
    obtain ⟨call, member, exceeds⟩ := refused
    refine ⟨fun _ => ⟨rfl, depth⟩, fun fits => ?_⟩
    exact absurd exceeds (fits call (List.mem_append_left _ member))
  · have fits : ∀ call ∈ calls, ¬ call.Exceeds vocabulary (limit - extra) :=
      fun call member exceeds => refused ⟨call, member, exceeds⟩
    obtain ⟨outcome, freeAfter, freeLe⟩ := free
    obtain ⟨result, after, le⟩ := here
    obtain ⟨same, reached⟩ := first.shallow fits
    dsimp only at same reached
    subst same reached
    cases result with
    | error error =>
      have none : Call.after (Step.outcome ⟨.error error, freeAfter, freeLe⟩) more = [] := rfl
      rw [none, List.append_nil]
      exact ⟨fun exceeded => absurd exceeded refused, fun _ => ⟨rfl, rfl⟩⟩
    | ok value =>
      have deepens := rest value freeAfter le freeLe rfl
      constructor
      · rintro ⟨call, member, exceeds⟩
        rcases List.mem_append.mp member with before | later
        · exact absurd exceeds (fits call before)
        · exact deepens.deep ⟨call, later, exceeds⟩
      · exact fun inner => deepens.shallow fun call member =>
          inner call (List.mem_append_right _ member)

/-- What makes no calls changes nothing before calls. -/
theorem further
    {next : α → (later : State) → later.remaining ≤ (state.deeper extra).remaining → Step later β}
    {twin : α → (later : State) → later.remaining ≤ state.remaining → Step later β}
    {more : α × State → List Call} (first : Deepens vocabulary limit extra [] here free)
    (rest : ∀ value later le le', free.outcome = .ok (value, later) →
      Deepens vocabulary limit extra (more (value, later)) (next value (later.deeper extra) le)
        (twin value later le')) :
    Deepens vocabulary limit extra (Call.after free.outcome more) (here.andThen next)
      (free.andThen twin) :=
  first.andThen rest

theorem last
    {next : α → (later : State) → later.remaining ≤ (state.deeper extra).remaining → Step later β}
    {twin : α → (later : State) → later.remaining ≤ state.remaining → Step later β}
    (first : Deepens vocabulary limit extra calls here free)
    (rest : ∀ value later le le', free.outcome = .ok (value, later) →
      Deepens vocabulary limit extra [] (next value (later.deeper extra) le)
        (twin value later le')) :
    Deepens vocabulary limit extra calls (here.andThen next) (free.andThen twin) := by
  have none : Call.after free.outcome (fun _ => []) = ([] : List Call) := by
    cases free.outcome <;> rfl
  have deepens : Deepens vocabulary limit extra (calls ++ Call.after free.outcome fun _ => [])
      (here.andThen next) (free.andThen twin) := first.andThen rest
  rwa [none, List.append_nil] at deepens

/-- A call exceeds the limit only where the calls do that it makes. -/
theorem of_calls {call : Call} (fits : call.state.depth + call.own ≤ limit - extra)
    (made : Deepens vocabulary limit extra (call.calls vocabulary) here free) :
    Deepens vocabulary limit extra [call] here free := by
  have exceeds : call.Exceeds vocabulary (limit - extra) ↔
      ∃ inner ∈ call.calls vocabulary, inner.Exceeds vocabulary (limit - extra) := by
    rw [Call.exceeds_iff, or_iff_right (Nat.not_lt_of_le fits)]
  constructor
  · rintro ⟨_, member, exceeded⟩
    obtain rfl := List.mem_singleton.mp member
    exact made.deep (exceeds.mp exceeded)
  · intro within
    refine made.shallow fun inner member exceeded => ?_
    exact within call List.mem_cons_self (exceeds.mpr ⟨inner, member, exceeded⟩)

/-- An expression is refused where as many are open as may be. -/
theorem refused {call : Call} (exceeds : limit - extra < call.state.depth + call.own)
    (result : here.result = .error (.tooDeep limit)) (depth : here.after.depth = limit + 1) :
    Deepens vocabulary limit extra [call] here free := by
  refine ⟨fun _ => ⟨result, depth⟩, fun within => ?_⟩
  exact absurd (Call.exceeds_iff.mpr (.inl exceeds)) (within call List.mem_cons_self)

theorem expect {kind : Token.Kind} :
    Deepens vocabulary limit extra [] ((state.deeper extra).expect kind) (state.expect kind) := by
  unfold State.expect
  change Deepens vocabulary limit extra [] (if state.kind = kind then _ else _) _
  split <;> exact .same rfl rfl

theorem literal :
    Deepens vocabulary limit extra [] (literal (state.deeper extra)) (Parser.literal state) := by
  unfold Parser.literal
  refine .last (.same rfl rfl) fun token later _ _ _ => ?_
  cases Number.read? token.text <;> exact .same rfl rfl

theorem name :
    Deepens vocabulary limit extra [] (name vocabulary grammar (state.deeper extra))
      (Parser.name vocabulary grammar state) := by
  unfold Parser.name
  refine .last (.same rfl rfl) fun token later _ _ _ => ?_
  cases vocabulary.resolve? token.text with
  | none => exact .same rfl rfl
  | some quantity =>
    cases grammar with
    | numeric =>
      dsimp only
      split
      · exact .same rfl rfl
      · split <;> exact .same rfl rfl
    | quantity =>
      dsimp only
      split <;> exact .same rfl rfl

theorem magnitude :
    Deepens vocabulary limit extra [] (magnitude (state.deeper extra)) (Parser.magnitude state) := by
  unfold Parser.magnitude
  change Deepens vocabulary limit extra [] (if state.kind = .number then _ else _) _
  split
  · exact .literal
  · exact .same rfl rfl

theorem integer :
    Deepens vocabulary limit extra [] (integer (state.deeper extra)) (Parser.integer state) := by
  unfold Parser.integer
  change Deepens vocabulary limit extra [] (if state.kind = .minus then _ else _) _
  split
  · exact .advance (.map .magnitude)
  · exact .map .magnitude

end Deepens

theorem State.enter_deeper_of_lt (less : state.depth + extra < limit) :
    ∃ le, (state.deeper extra).enter (some limit) = ⟨.ok (), state.opened.deeper extra, le⟩ := by
  have allowed : (some limit).filter (· < (state.deeper extra).depth + 1) = none := by
    have within : ¬ limit < state.depth + extra + 1 := by omega
    simp [Option.filter, deeper, within]
  rw [← opened_deeper]
  unfold enter
  dsimp only
  rw [allowed]
  exact ⟨_, rfl⟩

theorem State.enter_of_full (full : limit ≤ state.depth) :
    ∃ le, state.enter (some limit) = ⟨.error (.tooDeep limit), state.opened, le⟩ := by
  have refused : (some limit).filter (· < state.depth + 1) = some limit := by
    have beyond : limit < state.depth + 1 := by omega
    simp [Option.filter, beyond]
  unfold enter
  dsimp only
  rw [refused]
  exact ⟨_, rfl⟩

/-- An expression that may be opened. -/
theorem Deepens.enter {calls : List Call}
    {next : Unit → (later : State) → later.remaining ≤ (state.deeper extra).remaining →
      Step later β}
    {twin : Unit → (later : State) → later.remaining ≤ state.remaining → Step later β}
    (less : state.depth + extra < limit)
    (rest : ∀ le le', Deepens vocabulary limit extra calls
      (next () (state.opened.deeper extra) le) (twin () state.opened le')) :
    Deepens vocabulary limit extra calls
      (((state.deeper extra).enter (some limit)).andThen next) ((state.enter none).andThen twin) := by
  obtain ⟨le, entered⟩ := State.enter_deeper_of_lt less
  rw [entered]
  have deepens := rest le (Nat.le_refl _)
  exact ⟨deepens.deep, deepens.shallow⟩

/-- The induction follows the calls of the parser without a limit. -/
theorem deepens (vocabulary : Vocabulary) (limit extra : Nat) :
    (∀ grammar state, state.depth + extra ≤ limit →
      Deepens vocabulary limit extra [.expression grammar state]
        (expression ⟨vocabulary, some limit⟩ grammar (state.deeper extra))
        (expression (.unlimited vocabulary) grammar state)) ∧
    (∀ grammar sum state, state.depth + extra ≤ limit →
      Deepens vocabulary limit extra [.sumRest grammar sum state]
        (sumRest ⟨vocabulary, some limit⟩ grammar sum (state.deeper extra))
        (sumRest (.unlimited vocabulary) grammar sum state)) ∧
    (∀ grammar state, state.depth + extra ≤ limit →
      Deepens vocabulary limit extra [.term grammar state]
        (term ⟨vocabulary, some limit⟩ grammar (state.deeper extra))
        (term (.unlimited vocabulary) grammar state)) ∧
    (∀ grammar afterLiteral chain state, state.depth + extra ≤ limit →
      Deepens vocabulary limit extra [.productRest grammar afterLiteral chain state]
        (productRest ⟨vocabulary, some limit⟩ grammar afterLiteral chain (state.deeper extra))
        (productRest (.unlimited vocabulary) grammar afterLiteral chain state)) ∧
    (∀ grammar state, state.depth + extra ≤ limit →
      Deepens vocabulary limit extra [.factor grammar state]
        (factor ⟨vocabulary, some limit⟩ grammar (state.deeper extra))
        (factor (.unlimited vocabulary) grammar state)) ∧
    (∀ state, state.depth + extra ≤ limit →
      Deepens vocabulary limit extra [.exponent state]
        (exponent ⟨vocabulary, some limit⟩ (state.deeper extra))
        (exponent (.unlimited vocabulary) state)) ∧
    (∀ grammar state, state.depth + extra ≤ limit →
      Deepens vocabulary limit extra [.atom grammar state]
        (atom ⟨vocabulary, some limit⟩ grammar (state.deeper extra))
        (atom (.unlimited vocabulary) grammar state)) := by
  obtain ⟨keptByExpression, keptByRest, keptByTerm, _, keptByFactor, _, keptByAtom⟩ :=
    recognized (.unlimited vocabulary)
  refine expression.mutual_induct (.unlimited vocabulary) _ _ _ _ _ _ _ ?expression ?lastTerm ?sum
    ?negated ?term ?product ?silent ?lastFactor ?factor ?grouped ?integer ?name ?literal
    ?parenthesized ?vector ?nothing
  case expression =>
    -- No other function looks at the limit.
    intro grammar state ihTerm ihRest room
    have ownDepth : (Call.expression grammar state).state.depth + 1 = state.depth + 1 := rfl
    rw [expression, expression]
    rcases Nat.lt_or_eq_of_le room with less | full
    · refine .of_calls (by change state.depth + 1 ≤ limit - extra; omega) (.enter less ?_)
      intro le le'
      have inside : state.opened.depth + extra ≤ limit := by
        change state.depth + 1 + extra ≤ limit
        omega
      rw [Call.calls]
      change Deepens vocabulary limit extra _ (if grammar.opens state.opened.kind then _ else _) _
      split
      · refine .andThen (ihTerm state.opened le' inside) fun first later _ further read => ?_
        have depth : later.depth = state.opened.depth := (keptByTerm _ _ _ _ read).depth_eq
        refine .last (ihRest state.opened le' first later further (depth ▸ inside))
          fun total last _ _ more => ?_
        have opened : last.depth = state.depth + 1 :=
          (keptByRest _ _ _ _ _ more).depth_eq.trans depth
        exact .map (.same rfl (State.closed_deeper (by omega)))
      · exact .same rfl rfl
    · have deeper : limit ≤ (state.deeper extra).depth := full.ge
      obtain ⟨le, entered⟩ := State.enter_of_full deeper
      refine .refused (by change limit - extra < state.depth + 1; omega) ?_ ?_
      · rw [entered]
        rfl
      · rw [entered]
        change state.depth + extra + 1 = limit + 1
        omega
  case lastTerm =>
    intro grammar sum state none room
    have deeper : AddOp.ofKind? (state.deeper extra).kind = .none := none
    refine .of_calls (Nat.le_sub_of_add_le room) ?_
    rw [sumRest_of_none deeper, sumRest_of_none none, Call.calls, none]
    exact .same rfl rfl
  case sum =>
    intro grammar sum state op some ihTerm ihRest room
    have deeper : AddOp.ofKind? (state.deeper extra).kind = .some op := some
    refine .of_calls (Nat.le_sub_of_add_le room) ?_
    rw [sumRest_of_some deeper, sumRest_of_some some, Call.calls, some]
    refine .advance (.andThen (ihTerm room) fun next later le le' read => ?_)
    have depth : later.depth = state.depth := (keptByTerm _ _ _ _ read).depth_eq
    dsimp only
    cases sum.add op next.root.worth with
    | error error => exact .same rfl rfl
    | ok total => exact .map (ihRest later le' total (depth ▸ room))
  case negated =>
    intro grammar state minus ihFactor ihRest room
    have deeper : (state.deeper extra).kind = .minus := minus
    refine .of_calls (Nat.le_sub_of_add_le room) ?_
    rw [term, if_pos deeper, term, if_pos minus, Call.calls, if_pos minus]
    refine .advance (.andThen (ihFactor room) fun first later le le' read => ?_)
    have depth : later.depth = state.depth := (keptByFactor _ _ _ _ read).depth_eq
    dsimp only
    cases Chain.ofFactor grammar true first.root.worth with
    | error error => exact .same rfl rfl
    | ok chain => exact .map (ihRest first later le' chain (depth ▸ room))
  case term =>
    intro grammar state plain ihFactor ihRest room
    have deeper : (state.deeper extra).kind ≠ .minus := plain
    refine .of_calls (Nat.le_sub_of_add_le room) ?_
    rw [term, if_neg deeper, term, if_neg plain, Call.calls, if_neg plain]
    refine .andThen (ihFactor room) fun first later le le' read => ?_
    have depth : later.depth = state.depth := (keptByFactor _ _ _ _ read).depth_eq
    dsimp only
    cases Chain.ofFactor grammar false first.root.worth with
    | error error => exact .same rfl rfl
    | ok chain => exact .map (ihRest first later le' chain (depth ▸ room))
  case product =>
    intro grammar afterLiteral chain state op some ihFactor ihRest room
    have deeper : MulOp.ofKind? (state.deeper extra).kind = .some op := some
    refine .of_calls (Nat.le_sub_of_add_le room) ?_
    rw [productRest_of_some deeper, productRest_of_some some, Call.calls, some]
    refine .advance (.andThen (ihFactor room) fun next later le le' read => ?_)
    have depth : later.depth = state.depth := (keptByFactor _ _ _ _ read).depth_eq
    dsimp only
    cases chain.apply op next.root.worth with
    | error error => exact .same rfl rfl
    | ok chain => exact .map (ihRest next later le' chain (depth ▸ room))
  case silent =>
    intro grammar afterLiteral chain state none silently ihFactor ihRest room
    have within : afterLiteral = true ∧ multipliesSilently vocabulary grammar state := silently
    have deeper : MulOp.ofKind? (state.deeper extra).kind = .none := none
    refine .of_calls (Nat.le_sub_of_add_le room) ?_
    rw [productRest_of_silent deeper within, productRest_of_silent none silently, Call.calls, none]
    dsimp only
    rw [if_pos within]
    refine .andThen (ihFactor room) fun next later le le' read => ?_
    have depth : later.depth = state.depth := (keptByFactor _ _ _ _ read).depth_eq
    dsimp only
    cases chain.apply .times next.root.worth with
    | error error => exact .same rfl rfl
    | ok chain => exact .map (ihRest later le' chain (depth ▸ room))
  case lastFactor =>
    intro grammar afterLiteral chain state none signed room
    have beyond : ¬ (afterLiteral = true ∧ multipliesSilently vocabulary grammar state) := signed
    have deeper : MulOp.ofKind? (state.deeper extra).kind = .none := none
    refine .of_calls (Nat.le_sub_of_add_le room) ?_
    rw [productRest_of_none deeper beyond, productRest_of_none none signed, Call.calls, none]
    dsimp only
    rw [if_neg beyond]
    exact .same rfl rfl
  case factor =>
    intro grammar state ihAtom ihExponent room
    refine .of_calls (Nat.le_sub_of_add_le room) ?_
    rw [factor, factor, Call.calls]
    refine .andThen (ihAtom room) fun base later le le' read => ?_
    have depth : later.depth = state.depth := (keptByAtom _ _ _ _ read).depth_eq
    dsimp only
    change Deepens vocabulary limit extra _ (if _ : later.kind = .power then _ else _) _
    split
    · refine .advance (.last (ihExponent later le' ‹_› (depth ▸ room)) fun times _ _ _ _ => ?_)
      cases (Worth.ofAtom grammar base.root.worth).power times.root.value <;> exact .same rfl rfl
    · exact .same rfl rfl
  case grouped =>
    intro state opening ihExpression room
    have deeper : (state.deeper extra).kind = .openParen := opening
    refine .of_calls (Nat.le_sub_of_add_le room) ?_
    rw [exponent_of_opening deeper, exponent_of_opening opening, Call.calls, if_pos opening]
    exact .advance (.last (ihExpression room) fun _ _ _ _ _ => .map .expect)
  case integer =>
    intro state plain room
    have deeper : (state.deeper extra).kind ≠ .openParen := plain
    refine .of_calls (Nat.le_sub_of_add_le room) ?_
    rw [exponent_of_plain deeper, exponent_of_plain plain, Call.calls, if_neg plain]
    exact .integer
  case name =>
    intro grammar state opens room
    have deeper : grammar.opening? (state.deeper extra).kind = some .name := opens
    refine .of_calls (Nat.le_sub_of_add_le room) ?_
    simp only [atom_of_name deeper, atom_of_name opens, Call.calls, opens]
    exact .name
  case literal =>
    intro grammar state opens room
    have deeper : grammar.opening? (state.deeper extra).kind = some .literal := opens
    refine .of_calls (Nat.le_sub_of_add_le room) ?_
    simp only [atom_of_literal deeper, atom_of_literal opens, Call.calls, opens]
    exact .literal
  case parenthesized =>
    intro grammar state opens ihExpression room
    have deeper : grammar.opening? (state.deeper extra).kind = some .parenthesis := opens
    refine .of_calls (Nat.le_sub_of_add_le room) ?_
    rw [atom_of_parenthesis deeper, atom_of_parenthesis opens, Call.calls, opens]
    exact .advance (.last (ihExpression room) fun _ _ _ _ _ => .map .expect)
  case vector =>
    intro grammar state op opens ihLeft ihRight room
    have deeper : grammar.opening? (state.deeper extra).kind = some (.vector op) := opens
    refine .of_calls (Nat.le_sub_of_add_le room) ?_
    rw [atom_of_vector deeper, atom_of_vector opens, Call.calls, opens]
    refine .advance (.further .expect fun _ opened _ le started => ?_)
    obtain ⟨_, _, rfl⟩ := State.expect_eq_ok started
    refine .andThen (ihLeft _ le room) fun left later _ further read => ?_
    have depth : later.depth = state.depth := (keptByExpression _ _ _ _ read).depth_eq
    refine .further .expect fun _ separated _ beyond parted => ?_
    obtain ⟨_, _, rfl⟩ := State.expect_eq_ok parted
    refine .last (ihRight _ le later further _ beyond (depth ▸ room)) fun right last _ _ _ => ?_
    refine .last .expect fun _ closed _ _ _ => ?_
    dsimp only [Setting.unlimited]
    cases Quantity.vectorProduct op left.root.worth.toQuantity right.root.worth.toQuantity
      (vocabulary.dimension? Quantity.angleKey) <;> exact .same rfl rfl
  case nothing =>
    intro grammar state closed room
    have deeper : grammar.opening? (state.deeper extra).kind = none := closed
    refine .of_calls (Nat.le_sub_of_add_le room) ?_
    simp only [atom_of_none deeper, atom_of_none closed, Call.calls, closed]
    exact .same rfl rfl

section Statements

variable {calls : List Call}

theorem Deepens.apart {read twin : (state : State) → Step state α}
    (deepens : Deepens vocabulary limit extra calls
      (read ((state.withNumbering .empty).deeper extra)) (twin (state.withNumbering .empty))) :
    Deepens vocabulary limit extra calls ((state.deeper extra).apart read) (state.apart twin) := by
  constructor
  · exact deepens.deep
  · intro fits
    obtain ⟨result, after⟩ := deepens.shallow fits
    exact ⟨result, congrArg (·.withNumbering state.numbering) after⟩

theorem deepens_whole (room : state.depth + extra ≤ limit) :
    Deepens vocabulary limit extra [.whole grammar state]
      (whole ⟨vocabulary, some limit⟩ grammar (state.deeper extra))
      (whole (.unlimited vocabulary) grammar state) := by
  obtain ⟨ofExpression, _⟩ := deepens vocabulary limit extra
  refine .of_calls (Nat.le_sub_of_add_le room) (.apart (.last (ofExpression _ _ room) ?_))
  intro tree later _ _ _
  change Deepens vocabulary limit extra [] (if later.cursor.atEnd then _ else _) _
  split <;> exact .same rfl rfl

theorem deepens_statements (vocabulary : Vocabulary) (grammar : Grammar) (state : State)
    (room : state.depth + extra ≤ limit) :
    Deepens vocabulary limit extra [.statements grammar state]
      (statements ⟨vocabulary, some limit⟩ grammar (state.deeper extra))
      (statements (.unlimited vocabulary) grammar state) := by
  obtain ⟨ofExpression, _⟩ := deepens vocabulary limit extra
  refine .of_calls (Nat.le_sub_of_add_le room) ?_
  induction state using statements_induction with
  | atEnd state ends =>
    have deeper : (state.deeper extra).cursor.atEnd = true := ends
    rw [statements_eq_done deeper, statements_eq_done ends, Call.calls, if_pos ends]
    exact .same rfl rfl
  | semicolon state isSemicolon ih =>
    have deeper : (state.deeper extra).kind = .semicolon := isSemicolon
    rw [statements_eq_since deeper, statements_eq_since isSemicolon, Call.calls,
      if_neg (State.not_atEnd_of_semicolon isSemicolon), if_pos isSemicolon]
    exact .advance (.of_calls (Nat.le_sub_of_add_le room) (ih room))
  | expression state goesOn ih =>
    have deeper : (state.deeper extra).kind.delimits = false := goesOn
    rw [statements_eq_andThen deeper, statements_eq_andThen goesOn, Call.calls,
      if_neg (State.not_atEnd goesOn), if_neg (State.kind_ne_semicolon goesOn)]
    refine .andThen (.apart (ofExpression _ _ room)) fun tree later _ le read => ?_
    have depth : later.depth = state.depth := Call.depth_of_apart read
    have inside : later.depth + extra ≤ limit := depth ▸ room
    dsimp only
    change Deepens vocabulary limit extra _ (if later.kind.delimits then _ else _) _
    split
    · exact .map (.of_calls (Nat.le_sub_of_add_le inside) (ih later le ‹_› inside))
    · exact .same rfl rfl

end Statements

end Dimensional.Parser
