import Dimensional.Proofs.Parser.Faults

/-! The parser looks at no token behind the next one: what it comes to is decided by the tokens that
it has passed and by the one that it stops at. -/

namespace Dimensional.Parser

variable {α β γ : Type} {vocabulary : Vocabulary} {grammar : Grammar} {count : Nat}
  {state other later left right : State}

/-- Two states agree on what was read, on the next token and on so many tokens behind it. -/
structure State.Agree (count : Nat) (left right : State) : Prop where
  depth : left.depth = right.depth
  numbering : left.numbering = right.numbering
  tokens : left.cursor.tokens.take (count + 1) = right.cursor.tokens.take (count + 1)

namespace State

theorem head?_tokens (state : State) : state.cursor.tokens.head? = some state.current :=
  state.cursor.head?_tokens

namespace Agree

theorem current (agree : left.Agree count right) : left.current = right.current := by
  have heads := congrArg List.head? agree.tokens
  rw [List.head?_take, List.head?_take, if_neg (Nat.succ_ne_zero _), if_neg (Nat.succ_ne_zero _),
    head?_tokens, head?_tokens] at heads
  exact Option.some_inj.mp heads

theorem kind (agree : left.Agree count right) : left.kind = right.kind :=
  congrArg Token.kind agree.current

theorem location (agree : left.Agree count right) : left.location = right.location :=
  congrArg Token.location agree.current

theorem atEnd (agree : left.Agree count right) : left.cursor.atEnd = right.cursor.atEnd := by
  have kinds : left.cursor.current.kind = right.cursor.current.kind := agree.kind
  rw [Cursor.atEnd, Cursor.atEnd, kinds]

theorem mark (agree : left.Agree count right) (shape : Shape) :
    left.mark shape = right.mark shape := by
  rw [State.mark, State.mark, agree.location]

theorem multipliesSilently (agree : left.Agree count right) :
    multipliesSilently vocabulary grammar left =
      Parser.multipliesSilently vocabulary grammar right := by
  rw [Parser.multipliesSilently, Parser.multipliesSilently, agree.kind, agree.current]

theorem opened (agree : left.Agree count right) : left.opened.Agree count right.opened :=
  ⟨congrArg (· + 1) agree.depth, agree.numbering, agree.tokens⟩

theorem closed (agree : left.Agree count right) : left.closed.Agree count right.closed :=
  ⟨congrArg (· - 1) agree.depth, agree.numbering, agree.tokens⟩

theorem withNumbering (agree : left.Agree count right) (numbering : Numbering) :
    (left.withNumbering numbering).Agree count (right.withNumbering numbering) :=
  ⟨agree.depth, rfl, agree.tokens⟩

theorem advance (agree : left.Agree (count + 1) right) (goesOn : left.kind ≠ .eof) :
    left.advance.Agree count right.advance := by
  have otherGoesOn : right.kind ≠ .eof := agree.kind ▸ goesOn
  have leftTokens : left.cursor.tokens = left.current :: left.advance.cursor.tokens :=
    (spans_advance goesOn).tokens_eq
  have rightTokens : right.cursor.tokens = right.current :: right.advance.cursor.tokens :=
    (spans_advance otherGoesOn).tokens_eq
  have tokens := agree.tokens
  rw [leftTokens, rightTokens, List.take_succ_cons, List.take_succ_cons] at tokens
  exact ⟨agree.depth, agree.numbering, (List.cons.inj tokens).2⟩

end Agree

end State

namespace Step

variable {before : State} {excuse : ParseError → Prop}

/-- How many tokens a step passes. -/
def passed (step : Step before α) : Nat := before.remaining - step.after.remaining

/-- A step that looks at no more than some tokens fails with an excuse, or the other comes to the
same behind as many tokens. -/
def Follows (excuse : ParseError → Prop) (count : Nat) (step : Step before α)
    (twin : Step other α) : Prop :=
  step.passed ≤ count →
    (∃ error, step.result = .error error ∧ excuse error) ∨
    (twin.result = step.result ∧ twin.passed = step.passed ∧
      step.after.Agree (count - step.passed) twin.after)

namespace Follows

/-- What passes no token leaves the same tokens to look at. -/
theorem of_stays {step : Step before α} {twin : Step other α}
    (stays : step.after.remaining = before.remaining)
    (otherStays : twin.after.remaining = other.remaining) (same : twin.result = step.result)
    (agree : step.after.Agree count twin.after) : Follows excuse count step twin := by
  intro _
  have none : step.passed = 0 := by rw [Step.passed, stays, Nat.sub_self]
  have otherNone : twin.passed = 0 := by rw [Step.passed, otherStays, Nat.sub_self]
  refine .inr ⟨same, otherNone.trans none.symm, ?_⟩
  rw [none]
  exact agree

theorem done (agree : before.Agree count other) (value : α) :
    Follows excuse count (.done value : Step before α) (.done value : Step other α) :=
  .of_stays rfl rfl rfl agree

theorem fail (agree : before.Agree count other) (error : ParseError) :
    Follows excuse count (.fail error : Step before α) (.fail error : Step other α) :=
  .of_stays rfl rfl rfl agree

theorem map {f : α → β} {step : Step before α} {twin : Step other α}
    (follows : Follows excuse count step twin) :
    Follows excuse count (step.map f) (twin.map f) := by
  intro within
  rcases follows within with ⟨error, failed, excused⟩ | ⟨same, passed, agree⟩
  · exact .inl ⟨error, by rw [Step.map, failed]; rfl, excused⟩
  · exact .inr ⟨by rw [Step.map, Step.map, same], passed, agree⟩

theorem andThen {step : Step before α} {twin : Step other α}
    {next : α → (later : State) → later.remaining ≤ before.remaining → Step later β}
    {nextTwin : α → (later : State) → later.remaining ≤ other.remaining → Step later β}
    (first : Follows excuse count step twin)
    (rest : ∀ value later otherLater le otherLe count, later.Agree count otherLater →
      Follows excuse count (next value later le) (nextTwin value otherLater otherLe)) :
    Follows excuse count (step.andThen next) (twin.andThen nextTwin) := by
  obtain ⟨result, after, le⟩ := step
  obtain ⟨otherResult, otherAfter, otherLe⟩ := twin
  intro within
  cases result with
  | error error =>
    rcases first within with ⟨_, ⟨⟩, excused⟩ | ⟨⟨⟩, passed, agree⟩
    · exact .inl ⟨error, rfl, excused⟩
    · exact .inr ⟨rfl, passed, agree⟩
  | ok value =>
    have further := (next value after le).remaining_le
    have otherFurther := (nextTwin value otherAfter otherLe).remaining_le
    have within : before.remaining - (next value after le).after.remaining ≤ count := within
    have firstWithin : before.remaining - after.remaining ≤ count := by omega
    rcases first firstWithin with ⟨_, ⟨⟩, _⟩ | ⟨⟨⟩, passed, agree⟩
    have passed : other.remaining - otherAfter.remaining = before.remaining - after.remaining :=
      passed
    have agree : after.Agree (count - (before.remaining - after.remaining)) otherAfter := agree
    have restWithin : after.remaining - (next value after le).after.remaining ≤
        count - (before.remaining - after.remaining) := by omega
    rcases rest value after otherAfter le otherLe _ agree restWithin with
      excused | ⟨same, more, ends⟩
    · exact .inl excused
    · have more : otherAfter.remaining - (nextTwin value otherAfter otherLe).after.remaining =
          after.remaining - (next value after le).after.remaining := more
      have all : other.remaining - (nextTwin value otherAfter otherLe).after.remaining =
          before.remaining - (next value after le).after.remaining := by omega
      have left : count - (before.remaining - after.remaining) -
          (next value after le).passed =
          count - (before.remaining - (next value after le).after.remaining) := by
        rw [Step.passed]
        omega
      rw [left] at ends
      exact .inr ⟨same, all, ends⟩

/-- What follows the next token looks at one token less. -/
theorem advance {step : Step before.advance α} {twin : Step other.advance α}
    (agree : before.Agree count other)
    (follows : ∀ count, before.advance.Agree count other.advance →
      Follows excuse count step twin) :
    Follows excuse count (.since before.remaining_advance_le step)
      (.since other.remaining_advance_le twin) := by
  intro within
  have within : before.remaining - step.after.remaining ≤ count := within
  have le := step.remaining_le
  have otherLe := twin.remaining_le
  by_cases ends : before.kind = .eof
  · have otherEnds : other.kind = .eof := agree.kind ▸ ends
    have stays := congrArg State.remaining (State.advance_of_end ends)
    have otherStays := congrArg State.remaining (State.advance_of_end otherEnds)
    have inside : before.advance.Agree count other.advance := by
      rwa [State.advance_of_end ends, State.advance_of_end otherEnds]
    have passed : step.passed = before.remaining - step.after.remaining := by
      rw [Step.passed, stays]
    have otherPassed : twin.passed = other.remaining - twin.after.remaining := by
      rw [Step.passed, otherStays]
    have follows := follows count inside
    rw [Follows, passed, otherPassed] at follows
    exact follows within
  · have otherGoesOn : other.kind ≠ .eof := agree.kind ▸ ends
    have goes := (State.spans_advance ends).remaining_eq
    have otherGoes := (State.spans_advance otherGoesOn).remaining_eq
    rw [List.length_singleton] at goes otherGoes
    have passed : before.remaining - step.after.remaining = step.passed + 1 := by
      rw [Step.passed]
      omega
    have otherPassed : other.remaining - twin.after.remaining = twin.passed + 1 := by
      rw [Step.passed]
      omega
    obtain ⟨count, rfl⟩ : ∃ less, count = less + 1 := ⟨count - 1, by omega⟩
    rcases follows count (agree.advance ends) (by omega) with excused | ⟨same, more, inside⟩
    · exact .inl excused
    · refine .inr ⟨same, ?_, ?_⟩
      · exact otherPassed.trans ((congrArg (· + 1) more).trans passed.symm)
      · have left : count + 1 - (before.remaining - step.after.remaining) =
            count - step.passed := by omega
        change step.after.Agree (count + 1 - (before.remaining - step.after.remaining)) twin.after
        rwa [left]

theorem take (agree : before.Agree count other) :
    Follows excuse count before.take other.take := by
  have done : ∀ count, before.advance.Agree count other.advance →
      Follows excuse count (.done before.current : Step before.advance Token)
        (.done other.current : Step other.advance Token) := by
    rw [agree.current]
    exact fun _ inside => .done inside _
  exact .advance agree done

theorem unexpected (agree : before.Agree count other) (expected : Expectation) :
    Follows excuse count (before.unexpected expected : Step before α)
      (other.unexpected expected) := by
  unfold State.unexpected
  rw [agree.current]
  exact .fail agree _

theorem expect (agree : before.Agree count other) (kind : Token.Kind) :
    Follows excuse count (before.expect kind) (other.expect kind) := by
  unfold State.expect
  rw [← agree.kind]
  split
  · exact .take agree
  · exact .unexpected agree _

theorem literal (agree : before.Agree count other) :
    Follows excuse count (literal before) (Parser.literal other) := by
  unfold Parser.literal
  refine (Follows.take agree).andThen fun token later otherLater _ _ count inside => ?_
  cases Number.read? token.text with
  | none => exact .fail inside _
  | some value => exact .done inside _

theorem name (agree : before.Agree count other) :
    Follows excuse count (name vocabulary grammar before)
      (Parser.name vocabulary grammar other) := by
  unfold Parser.name
  refine (Follows.take agree).andThen fun token later otherLater _ _ count inside => ?_
  cases vocabulary.resolve? token.text with
  | none => exact .fail inside _
  | some quantity =>
    cases grammar with
    | numeric =>
      dsimp only
      split
      · exact .fail inside _
      · split
        · exact .fail inside _
        · exact .done inside _
    | quantity =>
      dsimp only
      rw [← inside.numbering]
      split
      · exact .of_stays rfl rfl rfl (inside.withNumbering _)
      · exact .done inside _

theorem magnitude (agree : before.Agree count other) :
    Follows excuse count (magnitude before) (Parser.magnitude other) := by
  unfold Parser.magnitude
  rw [← agree.kind]
  split
  · exact .literal agree
  · exact .unexpected agree _

theorem integer (agree : before.Agree count other) :
    Follows excuse count (integer before) (Parser.integer other) := by
  unfold Parser.integer
  rw [← agree.kind, ← agree.location, ← agree.mark]
  split
  · exact .advance agree fun _ inside => .map (.magnitude inside)
  · exact .map (.magnitude agree)

/-- What is read apart is read with the same numbering. -/
theorem apart {read : (state : State) → Step state α} {otherRead : (state : State) → Step state α}
    (agree : before.Agree count other)
    (follows : ∀ count state other, state.Agree count other →
      Follows excuse count (read state) (otherRead other)) :
    Follows excuse count (before.apart read) (other.apart otherRead) := by
  intro within
  rcases follows count _ _ (agree.withNumbering .empty) within with
    excused | ⟨same, passed, ends⟩
  · exact .inl excused
  · refine .inr ⟨same, passed, ends.depth, agree.numbering, ends.tokens⟩

end Follows

end Step

/-- Under one limit an expression is opened as under another, unless there is an excuse. -/
def Enters (excuse : ParseError → Prop) (limit? another? : Option Nat) : Prop :=
  ∀ count state other, State.Agree count state other →
    Step.Follows excuse count (state.enter limit?) (other.enter another?)

theorem enters_same {limit? : Option Nat} : Enters (fun _ => False) limit? limit? := by
  intro count state other agree
  unfold State.enter
  dsimp only
  rw [← agree.depth]
  cases limit?.filter (· < state.depth + 1) with
  | some limit => exact .of_stays rfl rfl rfl ⟨rfl, agree.numbering, agree.tokens⟩
  | none => exact .of_stays rfl rfl rfl ⟨rfl, agree.numbering, agree.tokens⟩

/-- Without a limit nothing is too deep. -/
theorem enters_unlimited {limit? : Option Nat} :
    Enters (fun error => ∃ limit, error = .tooDeep limit) limit? none := by
  intro count state other agree
  unfold State.enter
  dsimp only
  cases limit?.filter (· < state.depth + 1) with
  | some limit => exact fun _ => .inl ⟨_, rfl, limit, rfl⟩
  | none => exact .of_stays rfl rfl rfl agree.opened

section Reads

variable {excuse : ParseError → Prop} {limit? another? : Option Nat}

/-- The induction follows the calls of the parser in one reading; the other makes the same calls. -/
theorem follows (vocabulary : Vocabulary) (enters : Enters excuse limit? another?) :
    (∀ grammar state count other, state.Agree count other → Step.Follows excuse count
      (expression ⟨vocabulary, limit?⟩ grammar state)
      (expression ⟨vocabulary, another?⟩ grammar other)) ∧
    (∀ grammar sum state count other, state.Agree count other → Step.Follows excuse count
      (sumRest ⟨vocabulary, limit?⟩ grammar sum state)
      (sumRest ⟨vocabulary, another?⟩ grammar sum other)) ∧
    (∀ grammar state count other, state.Agree count other → Step.Follows excuse count
      (term ⟨vocabulary, limit?⟩ grammar state) (term ⟨vocabulary, another?⟩ grammar other)) ∧
    (∀ grammar afterLiteral chain state count other, state.Agree count other →
      Step.Follows excuse count (productRest ⟨vocabulary, limit?⟩ grammar afterLiteral chain state)
        (productRest ⟨vocabulary, another?⟩ grammar afterLiteral chain other)) ∧
    (∀ grammar state count other, state.Agree count other → Step.Follows excuse count
      (factor ⟨vocabulary, limit?⟩ grammar state)
      (factor ⟨vocabulary, another?⟩ grammar other)) ∧
    (∀ state count other, state.Agree count other → Step.Follows excuse count
      (exponent ⟨vocabulary, limit?⟩ state) (exponent ⟨vocabulary, another?⟩ other)) ∧
    (∀ grammar state count other, state.Agree count other → Step.Follows excuse count
      (atom ⟨vocabulary, limit?⟩ grammar state) (atom ⟨vocabulary, another?⟩ grammar other)) := by
  refine expression.mutual_induct ⟨vocabulary, limit?⟩ _ _ _ _ _ _ _ ?expression ?lastTerm ?sum
    ?negated ?term ?product ?silent ?lastFactor ?factor ?grouped ?integer ?name ?literal
    ?parenthesized ?vector ?nothing
  case expression =>
    intro grammar state ihTerm ihRest count other agree
    rw [expression, expression]
    refine (enters count state other agree).andThen fun _ opened _ le _ count inside => ?_
    rw [← inside.kind]
    split
    · refine (ihTerm opened le count _ inside).andThen
        fun first later _ further _ count goesOn => ?_
      refine (ihRest opened le first later further count _ goesOn).andThen
        fun _ last _ _ _ count ends => ?_
      rw [inside.location]
      exact .map (.of_stays rfl rfl rfl ends.closed)
    · exact .unexpected inside _
  case lastTerm =>
    intro grammar sum state none count other agree
    rw [sumRest_of_none none, sumRest_of_none (agree.kind ▸ none)]
    exact .done agree _
  case sum =>
    intro grammar sum state op some ihTerm ihRest count other agree
    rw [sumRest_of_some some, sumRest_of_some (agree.kind ▸ some)]
    refine .advance agree fun count inside => ?_
    refine (ihTerm count _ inside).andThen fun next later _ le _ count goesOn => ?_
    rw [← agree.location, ← agree.mark]
    cases sum.add op next.root.worth with
    | error error => exact .fail goesOn _
    | ok total => exact .map (ihRest later le total count _ goesOn)
  case negated =>
    intro grammar state minus ihFactor ihRest count other agree
    rw [term, term, if_pos minus, if_pos (agree.kind ▸ minus)]
    refine .advance agree fun count inside => ?_
    refine (ihFactor count _ inside).andThen fun first later _ le _ count goesOn => ?_
    rw [← agree.location, ← agree.mark]
    cases Chain.ofFactor grammar true first.root.worth with
    | error error => exact .fail goesOn _
    | ok chain => exact .map (ihRest first later le chain count _ goesOn)
  case term =>
    intro grammar state plain ihFactor ihRest count other agree
    rw [term, term, if_neg plain, if_neg (agree.kind ▸ plain)]
    refine (ihFactor count _ agree).andThen fun first later _ le _ count goesOn => ?_
    rw [← agree.location]
    cases Chain.ofFactor grammar false first.root.worth with
    | error error => exact .fail goesOn _
    | ok chain => exact .map (ihRest first later le chain count _ goesOn)
  case product =>
    intro grammar afterLiteral chain state op some ihFactor ihRest count other agree
    rw [productRest_of_some some, productRest_of_some (agree.kind ▸ some)]
    refine .advance agree fun count inside => ?_
    refine (ihFactor count _ inside).andThen fun next later _ le _ count goesOn => ?_
    rw [← agree.location, ← agree.mark]
    cases chain.apply op next.root.worth with
    | error error => exact .fail goesOn _
    | ok chain => exact .map (ihRest next later le chain count _ goesOn)
  case silent =>
    intro grammar afterLiteral chain state none silently ihFactor ihRest count other agree
    rw [productRest_of_silent none silently, productRest_of_silent (agree.kind ▸ none)
      (agree.multipliesSilently ▸ silently)]
    refine (ihFactor count _ agree).andThen fun next later _ le _ count goesOn => ?_
    rw [← agree.location, ← agree.mark]
    cases chain.apply .times next.root.worth with
    | error error => exact .fail goesOn _
    | ok chain => exact .map (ihRest later le chain count _ goesOn)
  case lastFactor =>
    intro grammar afterLiteral chain state none signed count other agree
    rw [productRest_of_none none signed, productRest_of_none (agree.kind ▸ none)
      (agree.multipliesSilently ▸ signed)]
    exact .done agree _
  case factor =>
    intro grammar state ihAtom ihExponent count other agree
    rw [factor, factor]
    refine (ihAtom count _ agree).andThen fun base later otherLater le _ count goesOn => ?_
    rw [← agree.location]
    by_cases power : later.kind = .power
    · rw [dif_pos power, dif_pos (goesOn.kind ▸ power), ← goesOn.mark]
      refine .advance goesOn fun count inside => ?_
      refine (ihExponent later le power count _ inside).andThen fun times _ _ _ _ count ends => ?_
      cases (Worth.ofAtom grammar base.root.worth).power times.root.value with
      | error error => exact .fail ends _
      | ok raised => exact .done ends _
    · rw [dif_neg power, dif_neg (goesOn.kind ▸ power)]
      exact .done goesOn _
  case grouped =>
    intro state opening ihExpression count other agree
    rw [exponent_of_opening opening, exponent_of_opening (agree.kind ▸ opening)]
    refine .advance agree fun count inside => ?_
    exact (ihExpression count _ inside).andThen fun _ _ _ _ _ count ends => .map (.expect ends _)
  case integer =>
    intro state plain count other agree
    rw [exponent_of_plain plain, exponent_of_plain (agree.kind ▸ plain)]
    exact .integer agree
  case name =>
    intro grammar state opens count other agree
    rw [atom_of_name opens, atom_of_name (agree.kind ▸ opens)]
    exact .name agree
  case literal =>
    intro grammar state opens count other agree
    rw [atom_of_literal opens, atom_of_literal (agree.kind ▸ opens)]
    exact .literal agree
  case parenthesized =>
    intro grammar state opens ihExpression count other agree
    rw [atom_of_parenthesis opens, atom_of_parenthesis (agree.kind ▸ opens)]
    refine .advance agree fun count inside => ?_
    exact (ihExpression count _ inside).andThen fun _ _ _ _ _ count ends => .map (.expect ends _)
  case vector =>
    intro grammar state op opens ihLeft ihRight count other agree
    rw [atom_of_vector opens, atom_of_vector (agree.kind ▸ opens), ← agree.location]
    refine .advance agree fun count keyword => ?_
    refine (Step.Follows.expect keyword _).andThen fun _ opened _ le _ count inside => ?_
    refine (ihLeft opened le count _ inside).andThen fun left later _ further _ count goesOn => ?_
    refine (Step.Follows.expect goesOn _).andThen fun _ separated _ beyond _ count parted => ?_
    refine (ihRight opened le later further separated beyond count _ parted).andThen
      fun right last _ _ _ count ends => ?_
    refine (Step.Follows.expect ends _).andThen fun _ _ _ _ _ count finished => ?_
    cases Quantity.vectorProduct op left.root.worth.toQuantity right.root.worth.toQuantity
      (vocabulary.dimension? Quantity.angleKey) with
    | error error => exact .fail finished _
    | ok product => exact .done finished _
  case nothing =>
    intro grammar state closed count other agree
    rw [atom_of_none closed, atom_of_none (agree.kind ▸ closed)]
    exact .unexpected agree _

theorem follows_whole (enters : Enters excuse limit? another?) (agree : state.Agree count other) :
    Step.Follows excuse count (whole ⟨vocabulary, limit?⟩ grammar state)
      (whole ⟨vocabulary, another?⟩ grammar other) := by
  refine .apart agree fun count state other agree => ?_
  refine ((follows vocabulary enters).1 grammar state count other agree).andThen
    fun read later otherLater _ _ count ends => ?_
  rw [← ends.atEnd]
  split
  · exact .done ends _
  · exact .unexpected ends _

theorem follows_statements (enters : Enters excuse limit? another?)
    (agree : state.Agree count other) :
    Step.Follows excuse count (statements ⟨vocabulary, limit?⟩ grammar state)
      (statements ⟨vocabulary, another?⟩ grammar other) := by
  induction state using statements_induction generalizing count other with
  | atEnd state ends =>
    rw [statements_eq_done ends, statements_eq_done (agree.atEnd ▸ ends)]
    exact .done agree _
  | semicolon state isSemicolon ih =>
    have otherSemicolon : other.kind = .semicolon := agree.kind ▸ isSemicolon
    rw [statements_eq_since isSemicolon, statements_eq_since otherSemicolon]
    exact .advance agree fun _ inside => ih inside
  | expression state goesOn ih =>
    rw [statements_eq_andThen goesOn, statements_eq_andThen (agree.kind ▸ goesOn)]
    refine (Step.Follows.apart agree fun count state other =>
      (follows vocabulary enters).1 grammar state count other).andThen
      fun tree later _ le _ count ends => ?_
    rw [← ends.kind]
    split
    · exact .map (ih later le ‹_› ends)
    · exact .unexpected ends _

end Reads

/-- A way of reading from a stream of tokens under a limit: it goes on from where it begins, looks
ahead by one token, and has its failures explained by the calls that it makes. -/
structure Reading (vocabulary : Vocabulary) (read : Option Nat → (state : State) → Step state α)
    (call : State → Call) : Prop where
  begins : ∀ state, (call state).state = state
  advances : ∀ limit? state, (read limit? state).Advances
  follows : ∀ {excuse limit? another?}, Enters excuse limit? another? →
    ∀ count state other, State.Agree count state other →
      Step.Follows excuse count (read limit? state) (read another? other)
  fails : ∀ state, (read none state).FailsAs ((call state).FailsBefore vocabulary)

theorem reading_whole (vocabulary : Vocabulary) (grammar : Grammar) :
    Reading vocabulary (fun limit? => whole ⟨vocabulary, limit?⟩ grammar) (.whole grammar) :=
  ⟨fun _ => rfl, fun _ _ => advances_whole, fun enters _ _ _ => follows_whole enters,
    fun _ => fails_whole⟩

theorem reading_statements (vocabulary : Vocabulary) (grammar : Grammar) :
    Reading vocabulary (fun limit? => statements ⟨vocabulary, limit?⟩ grammar)
      (.statements grammar) :=
  ⟨fun _ => rfl, fun _ _ => advances_statements, fun enters _ _ _ => follows_statements enters,
    fun _ => fails_statements⟩

/-- Reading a stream of tokens from its start fails with an error and stops at a token. -/
structure FailsAt (read : (state : State) → Step state α) (stream : Cursor) (error : ParseError)
    (index : Nat) : Prop where
  result : (read (.ofCursor stream)).result = .error error
  inside : index < stream.tokens.length
  stands : (read (.ofCursor stream)).after.cursor = stream.skip index

/-- Two streams have the same tokens up to an index, that one included. -/
def SameUpTo (index : Nat) (stream other : Cursor) : Prop :=
  ∀ i ≤ index, stream.tokens[i]? = other.tokens[i]?

instance {stream other : Cursor} {index : Nat} : Decidable (SameUpTo index stream other) :=
  inferInstanceAs (Decidable (∀ _ ≤ _, _))

/-- An error points at a token of a stream up to an index: at the one where some call that was made
is at fault, as was found when that index was reached. -/
def PointsInto (vocabulary : Vocabulary) (call : Call) (stream : Cursor) (error : ParseError)
    (index : Nat) : Prop :=
  ∃ place ≤ index, ∃ site stop : State,
    site.cursor = stream.skip place ∧ stop.cursor = stream.skip index ∧
    stream.tokens[place]? = some site.current ∧ error.location? = some site.location ∧
    call.Fault vocabulary site error stop ∧
    ∀ reason location, error = .algebra reason location →
      PointsAt vocabulary (.ofCursor stream) site reason

/-- A failure is decided by the tokens up to the one that the reading stops at, and points at one of
them unless too many expressions are open. -/
def Decided (vocabulary : Vocabulary) (read : (state : State) → Step state α)
    (call : State → Call) (stream : Cursor) (error : ParseError) : Prop :=
  ∃ index, FailsAt read stream error index ∧
    (∀ other, SameUpTo index stream other → FailsAt read other error index) ∧
    ((∃ limit, error = .tooDeep limit) ∨
      PointsInto vocabulary (call (.ofCursor stream)) stream error index)

section Reading

variable {read : Option Nat → (state : State) → Step state α} {call : State → Call}
  {limit? : Option Nat} {stream : Cursor} {error : ParseError} {index : Nat}

theorem agree_of_sameUpTo {another : Cursor} (same : SameUpTo index stream another) :
    State.Agree index (.ofCursor stream) (.ofCursor another) := by
  refine ⟨rfl, rfl, List.ext_getElem? fun i => ?_⟩
  rw [List.getElem?_take, List.getElem?_take]
  split
  · exact same i (Nat.le_of_lt_succ ‹_›)
  · rfl

variable (reading : Reading vocabulary read call)

include reading

/-- A reading stops behind the tokens that it has passed. -/
theorem Reading.failsAt (h : (read limit? (.ofCursor stream)).result = .error error) :
    FailsAt (read limit?) stream error (read limit? (.ofCursor stream)).passed := by
  refine ⟨h, ?_, (reading.advances limit? (.ofCursor stream)).cursor_eq⟩
  have passed : (read limit? (.ofCursor stream)).passed ≤ stream.ahead.length := Nat.sub_le _ _
  rw [Cursor.tokens, List.length_append]
  exact Nat.lt_succ_of_le passed

/-- Another stream of the same tokens is read alike, whatever follows. -/
theorem Reading.failsAt_of_sameUpTo
    (h : (read limit? (.ofCursor stream)).result = .error error) {another : Cursor}
    (same : SameUpTo (read limit? (.ofCursor stream)).passed stream another) :
    FailsAt (read limit?) another error (read limit? (.ofCursor stream)).passed := by
  have follows : Step.Follows (fun _ => False) _ (read limit? (.ofCursor stream))
      (read limit? (.ofCursor another)) :=
    reading.follows enters_same _ _ _ (agree_of_sameUpTo same)
  rcases follows (Nat.le_refl _) with ⟨_, _, ⟨⟩⟩ | ⟨result, passed, _⟩
  rw [← passed]
  exact reading.failsAt (result.trans h)

theorem Reading.pointsInto (h : (read limit? (.ofCursor stream)).result = .error error) :
    (∃ limit, error = .tooDeep limit) ∨ PointsInto vocabulary (call (.ofCursor stream)) stream error
      (read limit? (.ofCursor stream)).passed := by
  have follows : Step.Follows (fun error => ∃ limit, error = .tooDeep limit)
      (read limit? (.ofCursor stream)).passed (read limit? (.ofCursor stream))
      (read none (.ofCursor stream)) :=
    reading.follows enters_unlimited _ _ _ ⟨rfl, rfl, rfl⟩
  rcases follows (Nat.le_refl _) with ⟨reason, failed, excused⟩ | ⟨result, passed, _⟩
  · obtain rfl := Except.error.inj (failed.symm.trans h)
    exact .inl excused
  · right
    obtain ⟨site, stop, same, fault⟩ := reading.fails _ error (result.trans h)
    have stands := (reading.failsAt (result.trans h)).stands
    rw [← same, passed] at stands
    obtain ⟨before, after⟩ := fault.precedes
    rw [reading.begins] at before
    obtain ⟨tokens, spans⟩ := before
    have place := spans.cursor_eq
    have within : tokens.length ≤ (read limit? (.ofCursor stream)).passed := by
      obtain ⟨more, further⟩ := after
      have whole : stream.ahead.length = tokens.length + (more.length + stop.remaining) := by
        rw [← further.remaining_eq]
        exact spans.remaining_eq
      have left : stop.remaining =
          stream.ahead.length - (read limit? (.ofCursor stream)).passed := by
        rw [State.remaining, stands]
        exact List.length_drop
      omega
    refine ⟨tokens.length, within, site, stop, place, stands, ?_, fault.location_eq, fault, ?_⟩
    · have parts : stream.tokens = tokens ++ site.cursor.tokens := spans.tokens_eq
      rw [parts, List.getElem?_append_right (Nat.le_refl _), Nat.sub_self, ← List.head?_eq_getElem?,
        State.head?_tokens]
    · rintro reason location rfl
      have points := fault.pointsAt
      rwa [reading.begins] at points

theorem Reading.decided (h : (read limit? (.ofCursor stream)).result = .error error) :
    Decided vocabulary (read limit?) call stream error :=
  ⟨_, reading.failsAt h, fun _ => reading.failsAt_of_sameUpTo h, reading.pointsInto h⟩

end Reading

/-- Every failure is decided by what was read, and points into it. Whatever follows the token that
the reading stops at, the same error is found there. -/
theorem failures_decided (setting : Setting) (grammar : Grammar) (stream : Cursor)
    (error : ParseError) :
    ((whole setting grammar (.ofCursor stream)).result = .error error →
      Decided setting.vocabulary (whole setting grammar) (.whole grammar) stream error) ∧
    ((statements setting grammar (.ofCursor stream)).result = .error error →
      Decided setting.vocabulary (statements setting grammar) (.statements grammar) stream error) :=
  ⟨(reading_whole setting.vocabulary grammar).decided,
    (reading_statements setting.vocabulary grammar).decided⟩

/-- A metre and a second are refused at the sign between them once the second has been read,
whatever follows the parenthesis behind it. -/
theorem exists_failure_decided :
    ∃ error, error.location? = some ⟨2, 1, 3⟩ ∧ ∀ source ∈ ["m + s ) kg", "m + s ) * 4"],
      FailsAt (whole (.standard Scope.si.vocabulary) .quantity)
        (.ofTokens (Scanner.ofString source).tokens) error 3 := by
  let stream : Cursor := .ofTokens (Scanner.ofString "m + s ) kg").tokens
  let step := whole (.standard Scope.si.vocabulary) .quantity (.ofCursor stream)
  obtain ⟨error, failed, place⟩ :
      ∃ error, step.result = .error error ∧ error.location? = some ⟨2, 1, 3⟩ := by
    have located : step.result.error?.bind ParseError.location? = some ⟨2, 1, 3⟩ := by
      decide +kernel
    obtain ⟨error, failed, place⟩ := Option.bind_eq_some_iff.mp located
    exact ⟨error, Except.error?_eq_some.mp failed, place⟩
  obtain ⟨index, fails, decided, _⟩ :=
    (failures_decided (.standard Scope.si.vocabulary) .quantity stream error).1 failed
  obtain rfl : index = 3 := by
    have left : (stream.skip index).ahead.length = 2 := by
      rw [← fails.stands]
      decide +kernel
    have whole : stream.ahead.length = 5 := by decide +kernel
    rw [Cursor.skip, List.length_drop, whole] at left
    omega
  refine ⟨error, place, List.forall_mem_cons.mpr ⟨fails, List.forall_mem_singleton.mpr ?_⟩⟩
  exact decided _ (by decide +kernel)

end Dimensional.Parser
