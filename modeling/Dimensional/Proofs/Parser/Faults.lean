import Dimensional.Proofs.Parser.Calls
import Dimensional.Proofs.Parser.Steps
import Dimensional.Proofs.Quantity.Errors

/-! What is at fault where a reading fails: the token that an error is about, or the operator whose
operands have been read and do not admit it. -/

namespace Dimensional

/-- The token that an error is about, unless it is about an operation. -/
def ParseError.token? : ParseError → Option Token
  | .invalidToken token | .invalidNumber token | .unexpected _ token | .unknownIdentifier token
  | .notConstant token | .notDimensionless token _ => some token
  | .algebra _ _ | .tooDeep _ => none

theorem ParseError.location_of_token {error : ParseError} {token : Token}
    (about : error.token? = some token) : error.location? = some token.location := by
  cases error <;> cases about <;> rfl

namespace Parser

/-- The state behind the sign of a term. -/
def State.unsigned (state : State) : State := if state.kind = .minus then state.advance else state

/-- The state at the first token of an exponent, behind its parenthesis if there is one. -/
def State.inside (state : State) : State :=
  if state.kind = .openParen then state.advance else state

theorem State.precedes_inside (state : State) : state.Precedes state.inside := by
  unfold inside
  split
  · exact state.precedes_advance
  · exact .refl state

/-- A call fails by itself. The error points at the next token of one state, and another state is
where the reading has come to. -/
inductive Call.Cause (vocabulary : Vocabulary) : Call → State → ParseError → State → Prop where
  | token (about : error.token? = some site.current) (stops : stop = site ∨ stop = site.advance) :
      Cause vocabulary call site error stop
  /-- The operator of a sum, with the terms before it and the term behind it. -/
  | sum (sign : AddOp.ofKind? site.kind = some op)
      (read : (Parser.term (.unlimited vocabulary) grammar site.advance).outcome =
        .ok (next, stop))
      (refused : sum.add op next.root.worth = .error error) :
      Cause vocabulary (.sumRest grammar sum site) site (.algebra error site.location) stop
  /-- The first factor of a term, behind its sign. -/
  | first (sign : negated = decide (begun.kind = .minus)) (behind : site = begun.unsigned)
      (read : (Parser.factor (.unlimited vocabulary) grammar site).outcome = .ok (head, stop))
      (refused : Chain.ofFactor grammar negated head.root.worth = .error error) :
      Cause vocabulary (.term grammar begun) site (.algebra error site.location) stop
  /-- The operator of a product, with the factors before it and the factor behind it. -/
  | product (sign : MulOp.ofKind? site.kind = some op)
      (read : (Parser.factor (.unlimited vocabulary) grammar site.advance).outcome =
        .ok (next, stop))
      (refused : chain.apply op next.root.worth = .error error) :
      Cause vocabulary (.productRest grammar afterLiteral chain site) site
        (.algebra error site.location) stop
  /-- The name of a dimension behind a literal. -/
  | silent (silent : multipliesSilently vocabulary grammar site = true)
      (read : (Parser.factor (.unlimited vocabulary) grammar site).outcome = .ok (next, stop))
      (refused : chain.apply .times next.root.worth = .error error) :
      Cause vocabulary (.productRest grammar true chain site) site
        (.algebra error site.location) stop
  /-- The first token of an exponent, with the factor that is raised. -/
  | power (read : (Parser.atom (.unlimited vocabulary) grammar begun).outcome = .ok (base, later))
      (sign : later.kind = .power)
      (further : (Parser.exponent (.unlimited vocabulary) later.advance).outcome =
        .ok (times, stop))
      (refused : (Worth.ofAtom grammar base.root.worth).power times.root.value = .error error) :
      Cause vocabulary (.factor grammar begun) later.advance.inside
        (.algebra error later.advance.inside.location) stop
  /-- The keyword of a vector product, with both of its operands. -/
  | vector (keyword : grammar.opening? site.kind = some (.vector op))
      (opening : site.advance.kind = .openParen)
      (read : (Parser.expression (.unlimited vocabulary) .quantity site.advance.advance).outcome =
        .ok (left, later))
      (comma : later.kind = .comma)
      (further : (Parser.expression (.unlimited vocabulary) .quantity later.advance).outcome =
        .ok (right, last))
      (closing : last.kind = .closeParen)
      (refused : Quantity.vectorProduct op left.root.worth.toQuantity right.root.worth.toQuantity
        (vocabulary.dimension? Quantity.angleKey) = .error error) :
      Cause vocabulary (.atom grammar site) site (.algebra error site.location) last.advance

/-- A call fails by itself, or one does that is made in it. -/
inductive Call.Fault (vocabulary : Vocabulary) : Call → State → ParseError → State → Prop where
  | itself (before : call.state.Precedes site) (after : site.Precedes stop)
      (cause : call.Cause vocabulary site error stop) : Fault vocabulary call site error stop
  | within {inner : Call} (made : inner ∈ call.calls vocabulary)
      (before : call.state.Precedes inner.state)
      (fault : Fault vocabulary inner site error stop) : Fault vocabulary call site error stop

/-- A call has a fault when the reading has come to the tokens before a state. -/
def Call.FailsBefore (vocabulary : Vocabulary) (call : Call) (error : ParseError) (after : State) :
    Prop :=
  ∃ site stop, stop.cursor = after.cursor ∧ call.Fault vocabulary site error stop

variable {α β : Type} {vocabulary : Vocabulary} {grammar : Grammar} {state site later stop : State}
  {call inner : Call} {error : ParseError}

namespace Step

variable {before : State} {step : Step before α} {p : ParseError → State → Prop}

/-- Where a step fails, its error and the state in which it ends are of a kind. -/
def FailsAs (step : Step before α) (p : ParseError → State → Prop) : Prop :=
  ∀ error, step.result = .error error → p error step.after

theorem FailsAs.of_ok {value : α} (h : step.result = .ok value) : step.FailsAs p := by
  intro error failed
  rw [h] at failed
  cases failed

theorem FailsAs.fail (h : p error before) : (Step.fail error : Step before α).FailsAs p := by
  rintro _ ⟨⟩
  exact h

theorem FailsAs.since {h : later.remaining ≤ before.remaining} {step : Step later α}
    (fails : step.FailsAs p) : (Step.since h step).FailsAs p := fails

theorem FailsAs.map {f : α → β} (fails : step.FailsAs p) : (step.map f).FailsAs p := by
  obtain ⟨result, after, le⟩ := step
  cases result with
  | error error => rintro _ ⟨⟩; exact fails error rfl
  | ok value => exact .of_ok rfl

theorem FailsAs.andThen
    {next : α → (later : State) → later.remaining ≤ before.remaining → Step later β}
    (first : step.FailsAs p)
    (rest : ∀ value later le, step.outcome = .ok (value, later) →
      (next value later le).FailsAs p) : (step.andThen next).FailsAs p := by
  obtain ⟨result, after, le⟩ := step
  cases result with
  | error error => rintro _ ⟨⟩; exact first error rfl
  | ok value => exact rest value after le rfl

theorem FailsAs.expect {kind : Token.Kind}
    (h : p (.unexpected (.token kind) state.current) state) : (state.expect kind).FailsAs p := by
  unfold State.expect
  split
  · exact .of_ok rfl
  · exact .fail h

theorem Advances.of_outcome {value : α} (advances : step.Advances)
    (h : step.outcome = .ok (value, later)) : before.Precedes later :=
  (outcome_eq_ok.mp h).2 ▸ advances

/-- A fault of a call is one of the call that it is made in. -/
theorem FailsAs.within {step : Step before α} (fails : step.FailsAs (inner.FailsBefore vocabulary))
    (made : inner ∈ call.calls vocabulary) (precedes : call.state.Precedes inner.state) :
    step.FailsAs (call.FailsBefore vocabulary) := by
  intro error failed
  obtain ⟨site, stop, same, fault⟩ := fails error failed
  exact ⟨site, stop, same, .within made precedes fault⟩

end Step

namespace Call

theorem failsBefore_of_cause (cause : call.Cause vocabulary site error stop)
    (before : call.state.Precedes site) (after : site.Precedes stop) :
    call.FailsBefore vocabulary error stop :=
  ⟨site, stop, rfl, .itself before after cause⟩

/-- An error about the next token is found before that token is passed or right behind it. -/
theorem failsBefore_token (about : error.token? = some site.current)
    (before : call.state.Precedes site) (stops : stop = site ∨ stop = site.advance) :
    call.FailsBefore vocabulary error stop := by
  refine failsBefore_of_cause (.token about stops) before ?_
  rcases stops with rfl | rfl
  · exact .refl _
  · exact site.precedes_advance

theorem fails_unexpected {expected : Expectation} (before : call.state.Precedes state) :
    (state.unexpected expected : Step state α).FailsAs (call.FailsBefore vocabulary) :=
  .fail (failsBefore_token rfl before (.inl rfl))

theorem fails_expect {kind : Token.Kind} (before : call.state.Precedes state) :
    (state.expect kind).FailsAs (call.FailsBefore vocabulary) :=
  .expect (failsBefore_token rfl before (.inl rfl))

theorem fails_literal (before : call.state.Precedes state) :
    (literal state).FailsAs (call.FailsBefore vocabulary) := by
  unfold literal
  refine .andThen (.of_ok rfl) fun token later _ read => ?_
  cases read
  split
  · exact .fail (failsBefore_token rfl before (.inr rfl))
  · exact .of_ok rfl

theorem fails_name (before : call.state.Precedes state) :
    (name vocabulary grammar state).FailsAs (call.FailsBefore vocabulary) := by
  unfold name
  refine .andThen (.of_ok rfl) fun token later _ read => ?_
  cases read
  split
  · exact .fail (failsBefore_token rfl before (.inr rfl))
  · split
    · exact .fail (failsBefore_token rfl before (.inr rfl))
    · split
      · exact .fail (failsBefore_token rfl before (.inr rfl))
      · exact .of_ok rfl
  · split <;> exact .of_ok rfl

theorem fails_magnitude (before : call.state.Precedes state) :
    (magnitude state).FailsAs (call.FailsBefore vocabulary) := by
  unfold magnitude
  split
  · exact fails_literal before
  · exact fails_unexpected before

theorem fails_integer (before : call.state.Precedes state) :
    (integer state).FailsAs (call.FailsBefore vocabulary) := by
  unfold integer
  split
  · exact .since (.map (fails_magnitude (before.trans state.precedes_advance)))
  · exact .map (fails_magnitude before)

section Chained

variable {first : Call} {x : Except ε (α × State)} {operate : α → Except δ β}
  {next : α → β → State → Call}

theorem first_mem_chained : first ∈ chained first x operate next := List.mem_cons_self

theorem next_mem_chained {value : α} {result : β} (read : x = .ok (value, later))
    (operated : operate value = .ok result) :
    next value result later ∈ chained first x operate next := by
  refine List.mem_cons_of_mem _ (mem_after.mpr ⟨_, read, ?_⟩)
  exact mem_after.mpr ⟨result, operated, List.mem_singleton.mpr rfl⟩

end Chained

end Call

section Location

variable {setting : Setting} {after : State} {tree : Expression}

theorem expression_location (h : (expression setting grammar state).outcome = .ok (tree, after)) :
    tree.root.location = state.location := by
  rw [expression_outcome] at h
  obtain ⟨⟨_, opened⟩, entered, h⟩ := Except.bind_eq_ok.mp h
  obtain ⟨_, rfl⟩ := State.enter_eq_ok entered
  dsimp only at h
  split at h
  · obtain ⟨⟨first, later⟩, _, h⟩ := Except.bind_eq_ok.mp h
    obtain ⟨⟨⟨sum, rest⟩, last⟩, _, h⟩ := Except.bind_eq_ok.mp h
    cases h
    rfl
  · cases h

theorem factor_location (h : (factor setting grammar state).outcome = .ok (tree, after)) :
    tree.root.location = state.location := by
  rw [factor_outcome] at h
  obtain ⟨⟨atom, later⟩, _, h⟩ := Except.bind_eq_ok.mp h
  dsimp only at h
  split at h
  · obtain ⟨⟨exponent, last⟩, _, h⟩ := Except.bind_eq_ok.mp h
    obtain ⟨raised, _, h⟩ := Except.bind_eq_ok.mp h
    cases h
    rfl
  · cases h
    rfl

theorem integer_location (h : (integer state).outcome = .ok (tree, after)) :
    tree.root.location = state.location := by
  rw [integer_outcome] at h
  split at h
  · obtain ⟨⟨number, last⟩, _, h⟩ := Except.bind_eq_ok.mp h
    cases h
    rfl
  · obtain ⟨⟨number, last⟩, _, h⟩ := Except.bind_eq_ok.mp h
    cases h
    rfl

/-- An exponent is placed at its first token behind the parenthesis. -/
theorem exponent_location (h : (exponent setting state).outcome = .ok (tree, after)) :
    tree.root.location = state.inside.location ∧ state.inside.Precedes after := by
  rw [exponent_outcome] at h
  unfold State.inside
  split at h
  · rename_i opening
    obtain ⟨⟨inner, later⟩, read, h⟩ := Except.bind_eq_ok.mp h
    obtain ⟨⟨_, last⟩, closed, h⟩ := Except.bind_eq_ok.mp h
    cases h
    rw [if_pos opening]
    have inside := ((advances setting).1 .numeric state.advance).of_outcome read
    exact ⟨expression_location read, inside.trans (Step.Advances.expect.of_outcome closed)⟩
  · rename_i plain
    rw [if_neg plain]
    exact ⟨integer_location h, Step.advances_integer.of_outcome h⟩

end Location

/-- The induction follows the calls of the parser without a limit. -/
theorem faults (vocabulary : Vocabulary) :
    (∀ grammar state, (expression (.unlimited vocabulary) grammar state).FailsAs
      ((Call.expression grammar state).FailsBefore vocabulary)) ∧
    (∀ grammar sum state, (sumRest (.unlimited vocabulary) grammar sum state).FailsAs
      ((Call.sumRest grammar sum state).FailsBefore vocabulary)) ∧
    (∀ grammar state, (term (.unlimited vocabulary) grammar state).FailsAs
      ((Call.term grammar state).FailsBefore vocabulary)) ∧
    (∀ grammar afterLiteral chain state,
      (productRest (.unlimited vocabulary) grammar afterLiteral chain state).FailsAs
        ((Call.productRest grammar afterLiteral chain state).FailsBefore vocabulary)) ∧
    (∀ grammar state, (factor (.unlimited vocabulary) grammar state).FailsAs
      ((Call.factor grammar state).FailsBefore vocabulary)) ∧
    (∀ state, (exponent (.unlimited vocabulary) state).FailsAs
      ((Call.exponent state).FailsBefore vocabulary)) ∧
    (∀ grammar state, (atom (.unlimited vocabulary) grammar state).FailsAs
      ((Call.atom grammar state).FailsBefore vocabulary)) := by
  obtain ⟨ofExpression, _, ofTerm, _, ofFactor, _, ofAtom⟩ := advances (.unlimited vocabulary)
  refine expression.mutual_induct (.unlimited vocabulary) _ _ _ _ _ _ _ ?expression ?lastTerm ?sum
    ?negated ?term ?product ?silent ?lastFactor ?factor ?grouped ?integer ?name ?literal
    ?parenthesized ?vector ?nothing
  case expression =>
    intro grammar state ihTerm ihRest
    rw [expression]
    refine .andThen (.of_ok rfl) fun _ opened le entered => ?_
    obtain ⟨_, rfl⟩ := State.enter_eq_ok entered
    split
    · rename_i opens
      refine .andThen ((ihTerm state.opened le).within ?_ (.refl _))
        fun first later further read => ?_
      · rw [Call.calls, if_pos opens]
        exact List.mem_cons_self
      · have precedes := (ofTerm grammar state.opened).of_outcome read
        refine .andThen ((ihRest state.opened le first later further).within ?_ precedes)
          fun _ last _ _ => .of_ok rfl
        rw [Call.calls, if_pos opens]
        exact List.mem_cons_of_mem _ (Call.mem_after.mpr ⟨_, read, List.mem_singleton.mpr rfl⟩)
    · exact Call.fails_unexpected (.refl _)
  case lastTerm =>
    intro grammar sum state none
    rw [sumRest_of_none none]
    exact .of_ok rfl
  case sum =>
    intro grammar sum state op some ihTerm ihRest
    rw [sumRest_of_some some]
    refine .since (.andThen (ihTerm.within ?_ state.precedes_advance)
      fun next later le read => ?_)
    · rw [Call.calls, some]
      exact Call.first_mem_chained
    · have precedes := state.precedes_advance.trans ((ofTerm grammar _).of_outcome read)
      split
      · rename_i refused
        exact .fail (Call.failsBefore_of_cause (.sum some read refused) (.refl _) precedes)
      · rename_i total added
        refine .map ((ihRest later le total).within ?_ precedes)
        rw [Call.calls, some]
        exact Call.next_mem_chained read added
  case negated =>
    intro grammar state minus ihFactor ihRest
    rw [term, if_pos minus]
    refine .since (.andThen (ihFactor.within ?_ state.precedes_advance)
      fun first later le read => ?_)
    · rw [Call.calls, if_pos minus]
      exact Call.first_mem_chained
    · have inside := (ofFactor grammar _).of_outcome read
      split
      · rename_i refused
        rw [factor_location read]
        have cause := Call.Cause.first (decide_eq_true minus).symm (if_pos minus).symm read refused
        exact .fail (Call.failsBefore_of_cause cause state.precedes_advance inside)
      · rename_i chain begun
        refine .map ((ihRest first later le chain).within ?_ (state.precedes_advance.trans inside))
        rw [Call.calls, if_pos minus]
        exact Call.next_mem_chained read begun
  case term =>
    intro grammar state plain ihFactor ihRest
    rw [term, if_neg plain]
    refine .andThen (ihFactor.within ?_ (.refl _)) fun first later le read => ?_
    · rw [Call.calls, if_neg plain]
      exact Call.first_mem_chained
    · have inside := (ofFactor grammar _).of_outcome read
      split
      · rename_i refused
        rw [factor_location read]
        have cause := Call.Cause.first (decide_eq_false plain).symm (if_neg plain).symm read refused
        exact .fail (Call.failsBefore_of_cause cause (.refl _) inside)
      · rename_i chain begun
        refine .map ((ihRest first later le chain).within ?_ inside)
        rw [Call.calls, if_neg plain]
        exact Call.next_mem_chained read begun
  case product =>
    intro grammar afterLiteral chain state op some ihFactor ihRest
    rw [productRest_of_some some]
    refine .since (.andThen (ihFactor.within ?_ state.precedes_advance)
      fun next later le read => ?_)
    · rw [Call.calls, some]
      exact Call.first_mem_chained
    · have precedes := state.precedes_advance.trans ((ofFactor grammar _).of_outcome read)
      split
      · rename_i refused
        exact .fail (Call.failsBefore_of_cause (.product some read refused) (.refl _) precedes)
      · rename_i chain extended
        refine .map ((ihRest next later le chain).within ?_ precedes)
        rw [Call.calls, some]
        exact Call.next_mem_chained read extended
  case silent =>
    intro grammar afterLiteral chain state none silently ihFactor ihRest
    have within : afterLiteral = true ∧ multipliesSilently vocabulary grammar state := silently
    rw [productRest_of_silent none silently]
    refine .andThen (ihFactor.within ?_ (.refl _)) fun next later le read => ?_
    · rw [Call.calls, none]
      dsimp only
      rw [if_pos within]
      exact Call.first_mem_chained
    · have precedes := (ofFactor grammar _).of_outcome read
      split
      · rename_i refused
        obtain ⟨rfl, silent⟩ := within
        exact .fail (Call.failsBefore_of_cause (.silent silent read refused) (.refl _) precedes)
      · rename_i chain extended
        refine .map ((ihRest later le chain).within ?_ precedes)
        rw [Call.calls, none]
        dsimp only
        rw [if_pos within]
        exact Call.next_mem_chained read extended
  case lastFactor =>
    intro grammar afterLiteral chain state none signed
    rw [productRest_of_none none signed]
    exact .of_ok rfl
  case factor =>
    intro grammar state ihAtom ihExponent
    rw [factor]
    refine .andThen (ihAtom.within List.mem_cons_self (.refl _)) fun base later le read => ?_
    have precedes := (ofAtom grammar _).of_outcome read
    dsimp only
    split
    · rename_i power
      have beyond := precedes.trans later.precedes_advance
      refine .since (.andThen ((ihExponent later le power).within ?_ beyond)
        fun times last _ further => ?_)
      · refine List.mem_cons_of_mem _ (Call.mem_after.mpr ⟨_, read, ?_⟩)
        rw [if_pos power]
        exact List.mem_singleton.mpr rfl
      · obtain ⟨location, inside⟩ := exponent_location further
        split
        · rename_i refused
          rw [location]
          refine .fail (Call.failsBefore_of_cause (.power read power further refused) ?_ inside)
          exact beyond.trans later.advance.precedes_inside
        · exact .of_ok rfl
    · exact .of_ok rfl
  case grouped =>
    intro state opening ihExpression
    rw [exponent_of_opening opening]
    refine .since (.andThen (ihExpression.within ?_ state.precedes_advance)
      fun _ later _ read => ?_)
    · rw [Call.calls, if_pos opening]
      exact List.mem_singleton.mpr rfl
    · have precedes := state.precedes_advance.trans ((ofExpression _ _).of_outcome read)
      exact .map (Call.fails_expect precedes)
  case integer =>
    intro state plain
    rw [exponent_of_plain plain]
    exact Call.fails_integer (.refl _)
  case name =>
    intro grammar state opens
    rw [atom_of_name opens]
    exact Call.fails_name (.refl _)
  case literal =>
    intro grammar state opens
    rw [atom_of_literal opens]
    exact Call.fails_literal (.refl _)
  case parenthesized =>
    intro grammar state opens ihExpression
    rw [atom_of_parenthesis opens]
    refine .since (.andThen (ihExpression.within ?_ state.precedes_advance)
      fun _ later _ read => ?_)
    · rw [Call.calls, opens]
      exact List.mem_singleton.mpr rfl
    · have precedes := state.precedes_advance.trans ((ofExpression _ _).of_outcome read)
      exact .map (Call.fails_expect precedes)
  case vector =>
    intro grammar state op opens ihLeft ihRight
    rw [atom_of_vector opens]
    have keyword := state.precedes_advance
    refine .since (.andThen (Call.fails_expect keyword) fun _ opened le started => ?_)
    obtain ⟨opening, rfl, rfl⟩ := State.expect_eq_ok started
    have inside := keyword.trans state.advance.precedes_advance
    refine .andThen ((ihLeft _ le).within ?_ inside) fun left later further read => ?_
    · rw [Call.calls, opens]
      exact Call.mem_after.mpr ⟨_, started, List.mem_cons_self⟩
    have behindLeft := inside.trans ((ofExpression _ _).of_outcome read)
    refine .andThen (Call.fails_expect behindLeft) fun _ separated beyond parted => ?_
    obtain ⟨comma, rfl, rfl⟩ := State.expect_eq_ok parted
    have between := behindLeft.trans later.precedes_advance
    refine .andThen ((ihRight _ le later further _ beyond).within ?_ between)
      fun right last _ more => ?_
    · rw [Call.calls, opens]
      refine Call.mem_after.mpr ⟨_, started, List.mem_cons_of_mem _ ?_⟩
      refine Call.mem_after.mpr ⟨_, read, Call.mem_after.mpr ⟨_, parted, ?_⟩⟩
      exact List.mem_singleton.mpr rfl
    have behindRight := between.trans ((ofExpression _ _).of_outcome more)
    refine .andThen (Call.fails_expect behindRight) fun _ closed _ finished => ?_
    obtain ⟨closing, rfl, rfl⟩ := State.expect_eq_ok finished
    split
    · rename_i refused
      exact .fail (Call.failsBefore_of_cause
        (.vector opens opening read comma more closing refused) (.refl _)
        (behindRight.trans last.precedes_advance))
    · exact .of_ok rfl
  case nothing =>
    intro grammar state closed
    rw [atom_of_none closed]
    exact Call.fails_unexpected (.refl _)

theorem Step.FailsAs.apart {read : (state : State) → Step state α}
    (fails : (read (state.withNumbering .empty)).FailsAs (call.FailsBefore vocabulary)) :
    (state.apart read).FailsAs (call.FailsBefore vocabulary) := fails

theorem fails_whole :
    (whole (.unlimited vocabulary) grammar state).FailsAs
      ((Call.whole grammar state).FailsBefore vocabulary) := by
  have precedes := (advances (.unlimited vocabulary)).1 grammar (state.withNumbering .empty)
  refine .apart (.andThen (((faults vocabulary).1 _ _).within ?_ (.refl _))
    fun _ later _ read => ?_)
  · exact List.mem_singleton.mpr rfl
  · split
    · exact .of_ok rfl
    · exact Call.fails_unexpected (precedes.of_outcome read)

theorem fails_statements :
    (statements (.unlimited vocabulary) grammar state).FailsAs
      ((Call.statements grammar state).FailsBefore vocabulary) := by
  induction state using statements_induction with
  | atEnd state ends =>
    rw [statements_eq_done ends]
    exact .of_ok rfl
  | semicolon state isSemicolon ih =>
    rw [statements_eq_since isSemicolon]
    refine .since (ih.within ?_ state.precedes_advance)
    rw [Call.calls, if_neg (State.not_atEnd_of_semicolon isSemicolon), if_pos isSemicolon]
    exact List.mem_singleton.mpr rfl
  | expression state goesOn ih =>
    have calls : (Call.statements grammar state).calls vocabulary = _ :=
      (if_neg (State.not_atEnd goesOn)).trans (if_neg (State.kind_ne_semicolon goesOn))
    have precedes : (state.apart (expression (.unlimited vocabulary) grammar)).Advances :=
      .apart ((advances (.unlimited vocabulary)).1 grammar _)
    rw [statements_eq_andThen goesOn]
    refine .andThen (.apart (((faults vocabulary).1 _ _).within ?_ (.refl _)))
      fun tree later le read => ?_
    · rw [calls]
      exact List.mem_cons_self
    · split
      · rename_i stops
        refine .map ((ih later le stops).within ?_ (precedes.of_outcome read))
        rw [calls]
        refine List.mem_cons_of_mem _ (Call.mem_after.mpr ⟨_, read, ?_⟩)
        rw [if_pos stops]
        exact List.mem_singleton.mpr rfl
      · exact Call.fails_unexpected (precedes.of_outcome read)

section Blame

theorem Call.Fault.precedes (fault : call.Fault vocabulary site error stop) :
    call.state.Precedes site ∧ site.Precedes stop := by
  induction fault with
  | itself before after _ => exact ⟨before, after⟩
  | within _ before _ ih => exact ⟨before.trans ih.1, ih.2⟩

/-- All errors point at the token that is at fault. -/
theorem Call.Cause.location_eq (cause : call.Cause vocabulary site error stop) :
    error.location? = some site.location := by
  cases cause with
  | token about _ => exact ParseError.location_of_token about
  | _ => rfl

theorem Call.Fault.location_eq (fault : call.Fault vocabulary site error stop) :
    error.location? = some site.location := by
  induction fault with
  | itself _ _ cause => exact cause.location_eq
  | within _ _ _ ih => exact ih

/-- Where an error points that is about an operation: two terms of different dimensions at the sign
between them, two vectors at the sign or the name of a dimension between them, operands of a vector
product at its keyword, and a power at the first token of the exponent, behind its parenthesis if
there is one. -/
def PointsAt (vocabulary : Vocabulary) (start site : State) : AlgebraError → Prop
  | .dimensionMismatch _ _ => ∃ op : AddOp, site.kind = op.kind
  | .vectorProduct op => site.kind = op.kind ∨
    op = .times ∧ site.kind = .identifier ∧ vocabulary.knowsDimension site.current.text
  | .nonVectorOperand op => site.kind = op.kind
  | .unknownDimension _ => ∃ op : VectorOp, site.kind = op.kind
  | .zeroToTheZero | .nonIntegerExponent _ =>
    ∃ sign : State, start.Precedes sign ∧ sign.kind = .power ∧ site = sign.advance.inside
  | .duplicateDimension _ | .overflow => True

theorem PointsAt.of_precedes {start : State} {reason : AlgebraError}
    (points : PointsAt vocabulary later site reason) (precedes : start.Precedes later) :
    PointsAt vocabulary start site reason := by
  cases reason with
  | zeroToTheZero | nonIntegerExponent =>
    obtain ⟨sign, further, power⟩ := points
    exact ⟨sign, precedes.trans further, power⟩
  | _ => exact points

theorem Call.Cause.pointsAt {reason : AlgebraError} {location : Location}
    (cause : call.Cause vocabulary site (.algebra reason location) stop) :
    PointsAt vocabulary call.state site reason := by
  cases cause with
  | token about _ => cases about
  | sum sign _ refused =>
    have errors := Worth.add_failsOnly _ refused
    cases reason with
    | dimensionMismatch => exact ⟨_, AddOp.ofKind?_eq_some_iff.mp sign⟩
    | _ => cases errors
  | first _ _ _ refused =>
    obtain rfl := Chain.ofFactor_failsOnly _ refused
    trivial
  | product sign _ refused =>
    have errors := Chain.apply_failsOnly _ refused
    cases reason with
    | vectorProduct =>
      obtain rfl := errors
      exact .inl (MulOp.ofKind?_eq_some_iff.mp sign)
    | overflow => trivial
    | _ => cases errors
  | silent silent _ refused =>
    have errors := Chain.apply_failsOnly _ refused
    simp only [multipliesSilently, Bool.and_eq_true, decide_eq_true_eq] at silent
    cases reason with
    | vectorProduct => exact .inr ⟨errors, silent.1.2, silent.2⟩
    | overflow => trivial
    | _ => cases errors
  | power read sign _ refused =>
    have errors := Worth.power_failsOnly _ refused
    have precedes := ((advances (.unlimited vocabulary)).2.2.2.2.2.2 _ _).of_outcome read
    cases reason with
    | zeroToTheZero | nonIntegerExponent => exact ⟨_, precedes, sign, rfl⟩
    | overflow => trivial
    | _ => cases errors
  | vector keyword _ _ _ _ _ refused =>
    have errors := Quantity.vectorProduct_failsOnly _ refused
    cases reason with
    | nonVectorOperand =>
      obtain rfl := errors
      exact (Grammar.opening?_vector_iff.mp keyword).2
    | unknownDimension => exact ⟨_, (Grammar.opening?_vector_iff.mp keyword).2⟩
    | overflow => trivial
    | _ => cases errors

theorem Call.Fault.pointsAt {reason : AlgebraError} {location : Location}
    (fault : call.Fault vocabulary site (.algebra reason location) stop) :
    PointsAt vocabulary call.state site reason := by
  generalize same : ParseError.algebra reason location = error at fault
  induction fault with
  | itself _ _ cause =>
    subst same
    exact cause.pointsAt
  | within _ before _ ih => exact (ih same).of_precedes before

end Blame

end Parser

end Dimensional
