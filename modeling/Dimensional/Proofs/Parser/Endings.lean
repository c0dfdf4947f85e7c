import Dimensional.Proofs.Parser.Steps
import Dimensional.Proofs.Parser.Calls

/-! How calls fail: like the first of the calls made in them that fails, or by themselves when all of
those have succeeded. A call that fails closes nothing that was opened for it. -/

namespace Dimensional.Parser

/-- What a step comes to, its value left aside. -/
def Step.ending {before : State} (step : Step before α) : Except ParseError Unit × State :=
  (step.result.map fun _ => (), step.after)

/-- What a call comes to, its value left aside. -/
def Call.ending (setting : Setting) : Call → Except ParseError Unit × State
  | expression grammar state => (Parser.expression setting grammar state).ending
  | sumRest grammar sum state => (Parser.sumRest setting grammar sum state).ending
  | term grammar state => (Parser.term setting grammar state).ending
  | productRest grammar afterLiteral chain state =>
    (Parser.productRest setting grammar afterLiteral chain state).ending
  | factor grammar state => (Parser.factor setting grammar state).ending
  | atom grammar state => (Parser.atom setting grammar state).ending
  | exponent state => (Parser.exponent setting state).ending
  | whole grammar state => (Parser.whole setting grammar state).ending
  | statements grammar state => (Parser.statements setting grammar state).ending

variable {α β : Type} {vocabulary : Vocabulary} {grammar : Grammar} {state later : State}
  {call inner : Call} {error : ParseError} {count depth : Nat}

/-- How a call without a limit ends. -/
abbrev Call.freely (vocabulary : Vocabulary) (call : Call) : Except ParseError Unit × State :=
  call.ending (.unlimited vocabulary)

namespace Step

variable {before : State} {step : Step before α} {calls more : List Call}

theorem ending_eq_error : step.ending.1 = .error error ↔ step.result = .error error := by
  unfold ending
  cases step.result <;> simp [Except.map]

/-- A step makes calls. If one of them fails, the step fails like it; if it fails by itself, a number
of expressions is open. -/
structure Traces (vocabulary : Vocabulary) (calls : List Call) (depth : Nat) (step : Step before α) :
    Prop where
  fails : ∀ inner ∈ calls, ∀ error, (inner.freely vocabulary).1 = .error error →
    step.result = .error error ∧ step.after.depth = (inner.freely vocabulary).2.depth
  alone : (∀ inner ∈ calls, (inner.freely vocabulary).1 = .ok ()) →
    ∀ error, step.result = .error error → step.after.depth = depth

namespace Traces

/-- A step that makes no calls. -/
theorem own (alone : ∀ error, step.result = .error error → step.after.depth = depth) :
    step.Traces vocabulary [] depth :=
  ⟨fun _ member => absurd member List.not_mem_nil, fun _ => alone⟩

theorem ok {value : α} (succeeds : step.result = .ok value) : step.Traces vocabulary [] depth :=
  .own fun error failed => by
    rw [succeeds] at failed
    cases failed

theorem fail (same : before.depth = depth) :
    (Step.fail error : Step before α).Traces vocabulary [] depth :=
  .own fun _ _ => same

/-- A step that is a call itself. -/
theorem itself (same : call.freely vocabulary = step.ending) :
    step.Traces vocabulary [call] depth where
  fails := by
    intro inner member error failed
    obtain rfl := List.mem_singleton.mp member
    rw [same] at failed ⊢
    exact ⟨ending_eq_error.mp failed, rfl⟩
  alone := by
    intro succeeds error failed
    have ok := succeeds call List.mem_cons_self
    rw [same, ending_eq_error.mpr failed] at ok
    cases ok

theorem since {h : later.remaining ≤ before.remaining} {step : Step later α}
    (traces : step.Traces vocabulary calls depth) :
    (Step.since h step).Traces vocabulary calls depth :=
  ⟨traces.fails, traces.alone⟩

theorem map {f : α → β} (traces : step.Traces vocabulary calls depth) :
    (step.map f).Traces vocabulary calls depth := by
  have failed_iff (error : ParseError) :
      (step.map f).result = .error error ↔ step.result = .error error := by
    unfold Step.map
    cases step.result <;> simp [Except.map]
  constructor
  · intro inner member error failed
    rw [failed_iff]
    exact traces.fails inner member error failed
  · intro succeeds error failed
    exact traces.alone succeeds error ((failed_iff error).mp failed)

theorem andThen
    {next : α → (later : State) → later.remaining ≤ before.remaining → Step later β}
    {more : α × State → List Call} (first : step.Traces vocabulary calls depth)
    (rest : ∀ value later le, step.outcome = .ok (value, later) →
      (next value later le).Traces vocabulary (more (value, later)) depth) :
    (step.andThen next).Traces vocabulary (calls ++ Call.after step.outcome more) depth := by
  obtain ⟨result, after, le⟩ := step
  cases result with
  | error reason =>
    have none : Call.after (Step.outcome ⟨.error reason, after, le⟩) more = [] := rfl
    rw [none, List.append_nil]
    constructor
    · intro inner member failure failed
      obtain ⟨same, depth⟩ := first.fails inner member failure failed
      cases same
      exact ⟨rfl, depth⟩
    · rintro succeeds _ ⟨⟩
      exact first.alone succeeds reason rfl
  | ok value =>
    have traces := rest value after le rfl
    constructor
    · intro inner member error failed
      rcases List.mem_append.mp member with before | later
      · exact nomatch (first.fails inner before error failed).1
      · exact traces.fails inner later error failed
    · intro succeeds error failed
      refine traces.alone (fun inner member => ?_) error failed
      exact succeeds inner (List.mem_append_right _ member)

/-- Nothing else is made after a step without calls. -/
theorem further
    {next : α → (later : State) → later.remaining ≤ before.remaining → Step later β}
    {more : α × State → List Call} (first : step.Traces vocabulary [] depth)
    (rest : ∀ value later le, step.outcome = .ok (value, later) →
      (next value later le).Traces vocabulary (more (value, later)) depth) :
    (step.andThen next).Traces vocabulary (Call.after step.outcome more) depth :=
  first.andThen rest

/-- What is behind the calls of a step can only fail by itself. -/
theorem last
    {next : α → (later : State) → later.remaining ≤ before.remaining → Step later β}
    (first : step.Traces vocabulary calls depth)
    (rest : ∀ value later le, step.outcome = .ok (value, later) →
      (next value later le).Traces vocabulary [] depth) :
    (step.andThen next).Traces vocabulary calls depth := by
  have none : Call.after step.outcome (fun _ => []) = ([] : List Call) := by
    cases step.outcome <;> rfl
  have traces : (step.andThen next).Traces vocabulary
      (calls ++ Call.after step.outcome fun _ => []) depth := first.andThen rest
  rwa [none, List.append_nil] at traces

theorem expect {kind : Token.Kind} (same : state.depth = depth) :
    (state.expect kind).Traces vocabulary [] depth := by
  unfold State.expect
  split
  · exact .ok rfl
  · exact .fail same

theorem literal (same : state.depth = depth) :
    (literal state).Traces vocabulary [] depth := by
  unfold Parser.literal
  refine .last (.ok rfl) fun token later _ read => ?_
  cases read
  split
  · exact .fail same
  · exact .ok rfl

theorem name (same : state.depth = depth) :
    (name vocabulary grammar state).Traces vocabulary [] depth := by
  unfold Parser.name
  refine .last (.ok rfl) fun token later _ read => ?_
  cases read
  split
  · exact .fail same
  · split
    · exact .fail same
    · split
      · exact .fail same
      · exact .ok rfl
  · split <;> exact .ok rfl

theorem magnitude (same : state.depth = depth) :
    (magnitude state).Traces vocabulary [] depth := by
  unfold Parser.magnitude
  split
  · exact .literal same
  · exact .fail same

theorem integer (same : state.depth = depth) :
    (integer state).Traces vocabulary [] depth := by
  unfold Parser.integer
  split
  · exact .since (.map (.magnitude same))
  · exact .map (.magnitude same)

end Traces

end Step

open Step

section Functions

variable {sum : Worth} {chain : Chain} {afterLiteral : Bool}

theorem Step.Traces.enter
    {next : Unit → (later : State) → later.remaining ≤ state.remaining → Step later β}
    {calls : List Call}
    (rest : (next () state.opened (Nat.le_refl _)).Traces vocabulary calls depth) :
    ((state.enter (Setting.unlimited vocabulary).limit?).andThen next).Traces vocabulary calls
      depth :=
  ⟨rest.fails, rest.alone⟩

theorem traces_expression :
    (expression (.unlimited vocabulary) grammar state).Traces vocabulary
      ((Call.expression grammar state).calls vocabulary) (state.depth + 1) := by
  obtain ⟨_, keptByRest, keptByTerm, _⟩ := recognized (.unlimited vocabulary)
  rw [expression, Call.calls]
  refine .enter ?_
  split
  · refine Traces.andThen (.itself rfl) fun first later _ read => ?_
    exact .last (.itself rfl) fun _ _ _ _ => .ok rfl
  · exact .fail rfl

theorem traces_sumRest :
    (sumRest (.unlimited vocabulary) grammar sum state).Traces vocabulary
      ((Call.sumRest grammar sum state).calls vocabulary) state.depth := by
  obtain ⟨_, keptByRest, keptByTerm, _⟩ := recognized (.unlimited vocabulary)
  cases sign : AddOp.ofKind? state.kind with
  | none =>
    rw [sumRest_of_none sign, Call.calls, sign]
    exact .ok rfl
  | some op =>
    rw [sumRest_of_some sign, Call.calls, sign]
    refine .since (Traces.andThen (.itself rfl) fun next later _ read => ?_)
    have depth : later.depth = state.depth := (keptByTerm _ _ _ _ read).depth_eq
    dsimp only
    cases sum.add op next.root.worth with
    | error error => exact .fail depth
    | ok total => exact .map (.itself rfl)

/-- A term behind its sign. -/
theorem traces_ofTerm {negated : Bool} {shape : Expression → Chain × List Expression → Expression} :
    ((factor (.unlimited vocabulary) grammar state).andThen fun first later _ =>
      match Chain.ofFactor grammar negated first.root.worth with
      | .error error => .fail (.algebra error first.root.location)
      | .ok chain =>
        (productRest (.unlimited vocabulary) grammar (isLiteral first) chain later).map
          (shape first)).Traces vocabulary
      (Call.ofTerm vocabulary grammar negated state) state.depth := by
  obtain ⟨_, _, _, _, keptByFactor, _⟩ := recognized (.unlimited vocabulary)
  refine .andThen (.itself rfl) fun first later _ read => ?_
  have depth : later.depth = state.depth := (keptByFactor _ _ _ _ read).depth_eq
  dsimp only
  cases Chain.ofFactor grammar negated first.root.worth with
  | error error => exact .fail depth
  | ok chain => exact .map (.itself rfl)

theorem traces_term :
    (term (.unlimited vocabulary) grammar state).Traces vocabulary
      ((Call.term grammar state).calls vocabulary) state.depth := by
  by_cases minus : state.kind = .minus
  · rw [term, Call.calls, if_pos minus, if_pos minus]
    exact .since traces_ofTerm
  · rw [term, Call.calls, if_neg minus, if_neg minus]
    exact traces_ofTerm

theorem traces_productRest :
    (productRest (.unlimited vocabulary) grammar afterLiteral chain state).Traces vocabulary
      ((Call.productRest grammar afterLiteral chain state).calls vocabulary) state.depth := by
  obtain ⟨_, _, _, _, keptByFactor, _⟩ := recognized (.unlimited vocabulary)
  cases sign : MulOp.ofKind? state.kind with
  | some op =>
    rw [productRest_of_some sign, Call.calls, sign]
    refine .since (.andThen (.itself rfl) fun next later _ read => ?_)
    have depth : later.depth = state.depth := (keptByFactor _ _ _ _ read).depth_eq
    dsimp only
    cases chain.apply op next.root.worth with
    | error error => exact .fail depth
    | ok chain => exact .map (.itself rfl)
  | none =>
    rw [Call.calls, sign]
    by_cases silent : afterLiteral = true ∧ multipliesSilently vocabulary grammar state
    · dsimp only
      rw [productRest_of_silent sign silent, if_pos silent]
      refine .andThen (.itself rfl) fun next later _ read => ?_
      have depth : later.depth = state.depth := (keptByFactor _ _ _ _ read).depth_eq
      dsimp only
      cases chain.apply .times next.root.worth with
      | error error => exact .fail depth
      | ok chain => exact .map (.itself rfl)
    · dsimp only
      rw [productRest_of_none sign silent, if_neg silent]
      exact .ok rfl

theorem traces_factor :
    (factor (.unlimited vocabulary) grammar state).Traces vocabulary
      ((Call.factor grammar state).calls vocabulary) state.depth := by
  obtain ⟨_, _, _, _, _, keptByExponent, keptByAtom⟩ := recognized (.unlimited vocabulary)
  rw [factor, Call.calls]
  refine Traces.andThen (.itself rfl) fun base later _ read => ?_
  have depth : later.depth = state.depth := (keptByAtom _ _ _ _ read).depth_eq
  dsimp only
  split
  · refine .since (.last (.itself rfl) fun times last _ further => ?_)
    have same : last.depth = later.depth := (keptByExponent _ _ _ further).depth_eq
    split
    · exact .fail (same.trans depth)
    · exact .ok rfl
  · exact .ok rfl

theorem traces_parenthesis {calls : List Call} {kind : Token.Kind}
    (traces : (expression (.unlimited vocabulary) grammar state).Traces vocabulary calls
      state.depth) :
    ((expression (.unlimited vocabulary) grammar state).andThen fun inner later _ =>
      (later.expect kind).map fun _ => inner).Traces vocabulary calls state.depth := by
  obtain ⟨keptByExpression, _⟩ := recognized (.unlimited vocabulary)
  refine traces.last fun inner later _ read => .map (.expect ?_)
  exact (keptByExpression _ _ _ _ read).depth_eq

theorem traces_exponent :
    (exponent (.unlimited vocabulary) state).Traces vocabulary
      ((Call.exponent state).calls vocabulary) state.depth := by
  by_cases opening : state.kind = .openParen
  · rw [exponent_of_opening opening, Call.calls, if_pos opening]
    exact .since (traces_parenthesis (.itself rfl))
  · rw [exponent_of_plain opening, Call.calls, if_neg opening]
    exact .integer rfl

theorem traces_atom :
    (atom (.unlimited vocabulary) grammar state).Traces vocabulary
      ((Call.atom grammar state).calls vocabulary) state.depth := by
  obtain ⟨keptByExpression, _⟩ := recognized (.unlimited vocabulary)
  rw [Call.calls]
  split
  · rename_i opens
    rw [atom_of_parenthesis opens]
    exact .since (traces_parenthesis (.itself rfl))
  · rename_i op opens
    rw [atom_of_vector opens]
    refine .since (.further (.expect rfl) fun _ opened _ started => ?_)
    obtain ⟨_, _, rfl⟩ := State.expect_eq_ok started
    refine .andThen (.itself rfl) fun left later _ read => ?_
    have first : later.depth = state.depth := (keptByExpression _ _ _ _ read).depth_eq
    refine .further (.expect first) fun _ separated _ parted => ?_
    obtain ⟨_, _, rfl⟩ := State.expect_eq_ok parted
    refine .last (.itself rfl) fun right last _ more => ?_
    have second : last.depth = later.depth := (keptByExpression _ _ _ _ more).depth_eq
    refine .last (.expect (second.trans first)) fun _ closed _ finished => ?_
    obtain ⟨_, _, rfl⟩ := State.expect_eq_ok finished
    split
    · exact .fail (second.trans first)
    · exact .ok rfl
  · rename_i opens
    rw [atom_of_name opens]
    exact .name rfl
  · rename_i opens
    rw [atom_of_literal opens]
    exact .literal rfl
  · rename_i closed
    rw [atom_of_none closed]
    exact .fail rfl

theorem Step.Traces.apart {read : (state : State) → Step state α} {calls : List Call}
    (traces : (read (state.withNumbering .empty)).Traces vocabulary calls depth) :
    (state.apart read).Traces vocabulary calls depth :=
  ⟨traces.fails, traces.alone⟩

theorem traces_whole :
    (whole (.unlimited vocabulary) grammar state).Traces vocabulary
      ((Call.whole grammar state).calls vocabulary) state.depth := by
  obtain ⟨keptByExpression, _⟩ := recognized (.unlimited vocabulary)
  refine .apart (.last (.itself rfl) fun tree later _ read => ?_)
  split
  · exact .ok rfl
  · exact .fail (keptByExpression _ _ _ _ read).depth_eq

theorem traces_statements :
    (statements (.unlimited vocabulary) grammar state).Traces vocabulary
      ((Call.statements grammar state).calls vocabulary) state.depth := by
  rw [Call.calls]
  by_cases ends : state.cursor.atEnd = true
  · rw [statements_eq_done ends, if_pos ends]
    exact .ok rfl
  · rw [if_neg ends]
    by_cases isSemicolon : state.kind = .semicolon
    · rw [statements_eq_since isSemicolon, if_pos isSemicolon]
      exact .since (.itself rfl)
    · have goesOn : state.kind.delimits = false := Bool.eq_false_iff.mpr fun stops =>
        (State.atEnd_or_semicolon stops).elim ends isSemicolon
      rw [statements_eq_andThen goesOn, if_neg isSemicolon]
      refine .andThen (.apart (.itself rfl)) fun tree later _ read => ?_
      dsimp only
      split
      · exact .map (.itself rfl)
      · exact .fail (Call.depth_of_apart read)

end Functions

namespace Call

/-- All functions of the parser fail like the calls made in them, or by themselves with what they have
opened. -/
theorem exists_traces (call : Call) : ∃ (before : State) (α : Type) (step : Step before α),
    call.freely vocabulary = step.ending ∧
      step.Traces vocabulary (call.calls vocabulary) (call.state.depth + call.own) := by
  cases call with
  | expression grammar state => exact ⟨_, _, _, rfl, traces_expression⟩
  | sumRest grammar sum state => exact ⟨_, _, _, rfl, traces_sumRest⟩
  | term grammar state => exact ⟨_, _, _, rfl, traces_term⟩
  | productRest grammar afterLiteral chain state => exact ⟨_, _, _, rfl, traces_productRest⟩
  | factor grammar state => exact ⟨_, _, _, rfl, traces_factor⟩
  | atom grammar state => exact ⟨_, _, _, rfl, traces_atom⟩
  | exponent state => exact ⟨_, _, _, rfl, traces_exponent⟩
  | whole grammar state => exact ⟨_, _, _, rfl, traces_whole⟩
  | statements grammar state => exact ⟨_, _, _, rfl, traces_statements⟩

theorem fails_of_made (made : inner ∈ call.calls vocabulary)
    (failed : (inner.freely vocabulary).1 = .error error) :
    (call.freely vocabulary).1 = .error error ∧
      (call.freely vocabulary).2.depth = (inner.freely vocabulary).2.depth := by
  obtain ⟨before, α, step, same, traces⟩ := call.exists_traces
  obtain ⟨fails, depth⟩ := traces.fails inner made error failed
  rw [same]
  exact ⟨ending_eq_error.mpr fails, depth⟩

/-- A call is made in another, at any depth. -/
inductive Reaches (vocabulary : Vocabulary) : Call → Call → Prop where
  | itself (call : Call) : Reaches vocabulary call call
  | within {call inner reached : Call} (made : inner ∈ call.calls vocabulary)
      (reaches : Reaches vocabulary inner reached) : Reaches vocabulary call reached

theorem fails_of_reaches {reached : Call} (reaches : call.Reaches vocabulary reached)
    (failed : (reached.freely vocabulary).1 = .error error) :
    (call.freely vocabulary).1 = .error error := by
  induction reaches with
  | itself => exact failed
  | within made _ ih => exact (fails_of_made made (ih failed)).1

theorem depth_of_alone (alone : ∀ inner ∈ call.calls vocabulary,
      (inner.freely vocabulary).1 = .ok ()) (failed : (call.freely vocabulary).1 = .error error) :
    (call.freely vocabulary).2.depth = call.state.depth + call.own := by
  obtain ⟨before, α, step, same, traces⟩ := call.exists_traces
  rw [same] at failed ⊢
  exact traces.alone alone error (ending_eq_error.mp failed)

end Call

section Induction

variable {p : Call → Prop}

theorem Call.forall_mem_chained {first : Call} {x : Except ε (α × State)} {operate : α → Except δ β}
    {next : α → β → State → Call} (begun : p first)
    (goesOn : ∀ value later result, x = .ok (value, later) → p (next value result later)) :
    ∀ inner ∈ chained first x operate next, p inner := by
  intro inner made
  rcases List.mem_cons.mp made with rfl | made
  · exact begun
  · obtain ⟨⟨value, later⟩, read, made⟩ := mem_after.mp made
    obtain ⟨result, _, single⟩ := mem_after.mp made
    obtain rfl := List.mem_singleton.mp single
    exact goesOn value later result read

/-- What holds of a call when it holds of the calls made in it holds of all calls of the functions
that read one expression or a part of it. -/
theorem calls_induction
    (step : ∀ call : Call, (∀ inner ∈ call.calls vocabulary, p inner) → p call) :
    (∀ grammar state, p (.expression grammar state)) ∧
    (∀ grammar sum state, p (.sumRest grammar sum state)) ∧
    (∀ grammar state, p (.term grammar state)) ∧
    (∀ grammar afterLiteral chain state, p (.productRest grammar afterLiteral chain state)) ∧
    (∀ grammar state, p (.factor grammar state)) ∧
    (∀ state, p (.exponent state)) ∧
    (∀ grammar state, p (.atom grammar state)) := by
  refine expression.mutual_induct (.unlimited vocabulary) _ _ _ _ _ _ _ ?expression ?lastTerm ?sum
    ?negated ?term ?product ?silent ?lastFactor ?factor ?grouped ?integer ?name ?literal
    ?parenthesized ?vector ?nothing
  case expression =>
    intro grammar state ihTerm ihRest
    refine step _ fun inner made => ?_
    rw [Call.calls] at made
    split at made
    · rcases List.mem_cons.mp made with rfl | made
      · exact ihTerm state.opened (Nat.le_refl _)
      · obtain ⟨⟨first, later⟩, read, single⟩ := Call.mem_after.mp made
        obtain rfl := List.mem_singleton.mp single
        exact ihRest state.opened (Nat.le_refl _) first later (Step.remaining_le_of_outcome read)
    · cases made
  case lastTerm =>
    intro grammar sum state none
    refine step _ fun inner made => ?_
    rw [Call.calls, none] at made
    cases made
  case sum =>
    intro grammar sum state op some ihTerm ihRest
    refine step _ ?_
    rw [Call.calls, some]
    exact Call.forall_mem_chained ihTerm fun next later total read =>
      ihRest later (Step.remaining_le_of_outcome read) total
  case negated =>
    intro grammar state minus ihFactor ihRest
    refine step _ ?_
    rw [Call.calls, if_pos minus]
    exact Call.forall_mem_chained ihFactor fun first later chain read =>
      ihRest first later (Step.remaining_le_of_outcome read) chain
  case term =>
    intro grammar state plain ihFactor ihRest
    refine step _ ?_
    rw [Call.calls, if_neg plain]
    exact Call.forall_mem_chained ihFactor fun first later chain read =>
      ihRest first later (Step.remaining_le_of_outcome read) chain
  case product =>
    intro grammar afterLiteral chain state op some ihFactor ihRest
    refine step _ ?_
    rw [Call.calls, some]
    exact Call.forall_mem_chained ihFactor fun next later chain read =>
      ihRest next later (Step.remaining_le_of_outcome read) chain
  case silent =>
    intro grammar afterLiteral chain state none silently ihFactor ihRest
    have within : afterLiteral = true ∧ multipliesSilently vocabulary grammar state := silently
    refine step _ ?_
    rw [Call.calls, none]
    dsimp only
    rw [if_pos within]
    exact Call.forall_mem_chained ihFactor fun next later chain read =>
      ihRest later (Step.remaining_le_of_outcome read) chain
  case lastFactor =>
    intro grammar afterLiteral chain state none signed
    have beyond : ¬ (afterLiteral = true ∧ multipliesSilently vocabulary grammar state) := signed
    refine step _ fun inner made => ?_
    rw [Call.calls, none] at made
    dsimp only at made
    rw [if_neg beyond] at made
    cases made
  case factor =>
    intro grammar state ihAtom ihExponent
    refine step _ fun inner made => ?_
    rcases List.mem_cons.mp made with rfl | made
    · exact ihAtom
    · obtain ⟨⟨base, later⟩, read, made⟩ := Call.mem_after.mp made
      split at made
      · obtain rfl := List.mem_singleton.mp made
        exact ihExponent later (Step.remaining_le_of_outcome read) ‹_›
      · cases made
  case grouped =>
    intro state opening ihExpression
    refine step _ fun inner made => ?_
    rw [Call.calls, if_pos opening] at made
    obtain rfl := List.mem_singleton.mp made
    exact ihExpression
  case integer =>
    intro state plain
    refine step _ fun inner made => ?_
    rw [Call.calls, if_neg plain] at made
    cases made
  case name =>
    intro grammar state opens
    refine step _ fun inner made => ?_
    simp only [Call.calls, opens] at made
    cases made
  case literal =>
    intro grammar state opens
    refine step _ fun inner made => ?_
    simp only [Call.calls, opens] at made
    cases made
  case parenthesized =>
    intro grammar state opens ihExpression
    refine step _ fun inner made => ?_
    rw [Call.calls, opens] at made
    obtain rfl := List.mem_singleton.mp made
    exact ihExpression
  case vector =>
    intro grammar state op opens ihLeft ihRight
    refine step _ fun inner made => ?_
    rw [Call.calls, opens] at made
    obtain ⟨⟨token, opened⟩, started, made⟩ := Call.mem_after.mp made
    have le := Step.remaining_le_of_outcome started
    rcases List.mem_cons.mp made with rfl | made
    · exact ihLeft opened le
    · obtain ⟨⟨left, later⟩, read, made⟩ := Call.mem_after.mp made
      obtain ⟨⟨comma, separated⟩, parted, single⟩ := Call.mem_after.mp made
      obtain rfl := List.mem_singleton.mp single
      exact ihRight opened le later (Step.remaining_le_of_outcome read) separated
        (Step.remaining_le_of_outcome parted)
  case nothing =>
    intro grammar state closed
    refine step _ fun inner made => ?_
    simp only [Call.calls, closed] at made
    cases made

/-- Induction over the calls made in a call. -/
theorem Call.calls_induct (vocabulary : Vocabulary)
    (step : ∀ call : Call, (∀ inner ∈ call.calls vocabulary, p inner) → p call) (call : Call) :
    p call := by
  obtain ⟨ofExpression, ofRest, ofTerm, ofProduct, ofFactor, ofExponent, ofAtom⟩ :=
    calls_induction step
  cases call with
  | expression grammar state => exact ofExpression grammar state
  | sumRest grammar sum state => exact ofRest grammar sum state
  | term grammar state => exact ofTerm grammar state
  | productRest grammar afterLiteral chain state => exact ofProduct grammar afterLiteral chain state
  | factor grammar state => exact ofFactor grammar state
  | atom grammar state => exact ofAtom grammar state
  | exponent state => exact ofExponent state
  | whole grammar state =>
    refine step _ fun inner made => ?_
    obtain rfl := List.mem_singleton.mp made
    exact ofExpression _ _
  | statements grammar state =>
    induction state using statements_induction with
    | atEnd state ends =>
      refine step _ fun inner made => ?_
      rw [calls, if_pos ends] at made
      cases made
    | semicolon state isSemicolon ih =>
      refine step _ fun inner made => ?_
      rw [calls, if_neg (State.not_atEnd_of_semicolon isSemicolon), if_pos isSemicolon] at made
      obtain rfl := List.mem_singleton.mp made
      exact ih
    | expression state goesOn ih =>
      refine step _ fun inner made => ?_
      rw [calls, if_neg (State.not_atEnd goesOn), if_neg (State.kind_ne_semicolon goesOn)] at made
      rcases List.mem_cons.mp made with rfl | made
      · exact ofExpression _ _
      · obtain ⟨⟨tree, later⟩, read, made⟩ := mem_after.mp made
        split at made
        · rename_i stops
          obtain rfl := List.mem_singleton.mp made
          exact ih later (Step.remaining_le_of_outcome read) stops
        · cases made

end Induction

namespace Call

/-- A call without a limit fails with so many expressions open that were opened in it: by itself, or
in a call that it makes. -/
inductive Breaks (vocabulary : Vocabulary) : Call → Nat → Prop where
  | itself {call : Call} {error : ParseError}
      (alone : ∀ inner ∈ call.calls vocabulary, (inner.freely vocabulary).1 = .ok ())
      (failed : (call.freely vocabulary).1 = .error error) : Breaks vocabulary call call.own
  | within {call inner : Call} {count : Nat} (made : inner ∈ call.calls vocabulary)
      (breaks : Breaks vocabulary inner count) : Breaks vocabulary call (call.own + count)

theorem Breaks.fails (breaks : call.Breaks vocabulary count) :
    ∃ error, (call.freely vocabulary).1 = .error error := by
  induction breaks with
  | itself _ failed => exact ⟨_, failed⟩
  | within made _ ih =>
    obtain ⟨error, failed⟩ := ih
    exact ⟨error, (fails_of_made made failed).1⟩

/-- What was opened for a call that fails stays open. -/
theorem Breaks.depth_eq (breaks : call.Breaks vocabulary count) :
    (call.freely vocabulary).2.depth = call.state.depth + count := by
  induction breaks with
  | itself alone failed => exact depth_of_alone alone failed
  | @within call inner count made breaks ih =>
    obtain ⟨error, failed⟩ := breaks.fails
    calc (call.freely vocabulary).2.depth
      _ = (inner.freely vocabulary).2.depth := (fails_of_made made failed).2
      _ = inner.state.depth + count := ih
      _ = call.state.depth + (call.own + count) := by rw [depth_of_mem_calls made, Nat.add_assoc]

theorem exists_breaks (call : Call) (failed : (call.freely vocabulary).1 = .error error) :
    ∃ count, call.Breaks vocabulary count := by
  induction call using calls_induct vocabulary generalizing error with
  | step call ih =>
    by_cases alone : ∀ inner ∈ call.calls vocabulary, (inner.freely vocabulary).1 = .ok ()
    · exact ⟨_, .itself alone failed⟩
    · push Not at alone
      obtain ⟨inner, made, fails⟩ := alone
      cases ending : (inner.freely vocabulary).1 with
      | ok => exact absurd ending fails
      | error error =>
        obtain ⟨count, breaks⟩ := ih inner made ending
        exact ⟨_, .within made breaks⟩

end Call

end Dimensional.Parser
