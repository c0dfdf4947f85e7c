import Dimensional.Proofs.Parser.Outcome

/-! One equation for each function of the parser. Everything proved about the parser rests on these
equations and on the induction that follows its calls. -/

namespace Dimensional.Parser

variable {setting : Setting} {grammar : Grammar} {state : State}

/-- The node of a literal. -/
def literalNode (token : Token) : Except ParseError Expression :=
  match Number.read? token.text with
  | none => .error (.invalidNumber token)
  | some value => .ok (.leaf {
      shape := .number, location := token.location, worth := .quantity (.constant value) })

theorem literal_outcome :
    (literal state).outcome = (literalNode state.current).map (·, state.advance) := by
  unfold literal
  rw [Step.outcome_andThen (f := fun reached => (literalNode reached.1).map (·, reached.2))]
  · rfl
  · intro token later _
    unfold literalNode
    dsimp only
    cases Number.read? token.text <;> rfl

/-- The node of a name, and the numbering with that name in it if it is free. -/
def namedNode (vocabulary : Vocabulary) (grammar : Grammar) (token : Token)
    (numbering : Numbering) : Except ParseError (Expression × Numbering) :=
  match vocabulary.resolve? token.text, grammar with
  | none, _ => .error (.unknownIdentifier token)
  | some quantity, .numeric =>
    if !quantity.isConstant then .error (.notConstant token)
    else if !quantity.isDimensionless then
      .error (.notDimensionless token quantity.dimensionText)
    else .ok (nameNode token quantity none, numbering)
  | some quantity, .quantity =>
    if isFree vocabulary token.text quantity then
      .ok (nameNode token quantity (some (numbering.numberFor token.text).1),
        (numbering.numberFor token.text).2)
    else .ok (nameNode token quantity none, numbering)

theorem name_outcome {vocabulary : Vocabulary} :
    (name vocabulary grammar state).outcome =
      (namedNode vocabulary grammar state.current state.numbering).map fun read =>
        (read.1, { state.advance with numbering := read.2 }) := by
  unfold name
  rw [Step.outcome_andThen (f := fun reached =>
    (namedNode vocabulary grammar reached.1 reached.2.numbering).map fun read =>
      (read.1, { reached.2 with numbering := read.2 }))]
  · rfl
  · intro token later _
    unfold namedNode
    dsimp only
    cases vocabulary.resolve? token.text with
    | none => rfl
    | some quantity =>
      cases grammar <;> dsimp only
      · split
        · rfl
        · split <;> rfl
      · split <;> rfl

/-- A name that is read stands for a quantity, which is a constant without dimensions in numeric
expressions. Free names are numbered. -/
theorem namedNode_eq_ok {token : Token} {numbering after : Numbering} {leaf : Expression}
    (named : namedNode vocabulary grammar token numbering = .ok (leaf, after)) :
    ∃ quantity ∈ vocabulary.resolve? token.text,
      (grammar = .numeric → quantity.isConstant ∧ quantity.isDimensionless) ∧
      (leaf, after) =
        if isFree vocabulary token.text quantity then
          (nameNode token quantity (some (numbering.numberFor token.text).1),
            (numbering.numberFor token.text).2)
        else (nameNode token quantity none, numbering) := by
  unfold namedNode at named
  cases resolved : vocabulary.resolve? token.text with
  | none =>
    rw [resolved] at named
    cases named
  | some quantity =>
    refine ⟨quantity, rfl, ?_⟩
    rw [resolved] at named
    cases grammar with
    | numeric =>
      dsimp only at named
      split at named
      · cases named
      · split at named
        · cases named
        · rename_i constant dimensionless
          have isConstant : quantity.isConstant = true := by simpa using constant
          cases named
          exact ⟨fun _ => ⟨isConstant, by simpa using dimensionless⟩, by simp [isFree, isConstant]⟩
    | quantity =>
      refine ⟨nofun, ?_⟩
      dsimp only at named
      split at named <;> cases named <;> simp [*]

theorem literalNode_shape {token : Token} {tree : Expression}
    (h : literalNode token = .ok tree) : tree.root.shape = .number := by
  unfold literalNode at h
  split at h
  · cases h
  · cases h
    rfl

theorem namedNode_shape {vocabulary : Vocabulary} {token : Token} {numbering numbering' : Numbering} {tree : Expression}
    (h : namedNode vocabulary grammar token numbering = .ok (tree, numbering')) :
    tree.root.shape = .identifier := by
  unfold namedNode at h
  split at h
  · cases h
  · split at h
    · cases h
    · split at h
      · cases h
      · cases h
        rfl
  · split at h <;> cases h <;> rfl

theorem magnitude_outcome :
    (magnitude state).outcome =
      if state.kind = .number then (literalNode state.current).map (·, state.advance)
      else .error (.unexpected .exponent state.current) := by
  unfold magnitude
  split
  · exact literal_outcome
  · rfl

theorem integer_outcome :
    (integer state).outcome =
      if state.kind = .minus then do
        let (number, last) ← (magnitude state.advance).outcome
        .ok (.node {
          shape := .integer, location := state.location
          worth := .number (-1.0 * number.root.value) } [state.mark .negation, number], last)
      else (do
        let (number, last) ← (magnitude state).outcome
        .ok (.node {
          shape := .integer, location := state.location
          worth := .number (1.0 * number.root.value) } [number], last)) := by
  unfold integer
  split
  · rw [Step.outcome_since]
    exact Step.outcome_map
  · exact Step.outcome_map

theorem expression_outcome :
    (expression setting grammar state).outcome = (do
      let (_, opened) ← (state.enter setting.limit?).outcome
      if grammar.opens opened.kind then
        let (first, later) ← (term setting grammar opened).outcome
        let ((sum, rest), last) ← (sumRest setting grammar first.root.worth later).outcome
        .ok (.node {
          shape := .expression grammar, location := opened.location
          worth := sum } (first :: rest), last.closed)
      else .error (.unexpected (.expression grammar) opened.current)) := by
  rw [expression]
  refine Step.outcome_andThen fun _ opened _ => ?_
  by_cases opens : grammar.opens opened.kind
  · simp only [opens, reduceIte]
    refine Step.outcome_andThen fun first later _ => ?_
    exact Step.outcome_andThen fun _ _ _ => rfl
  · simp only [opens]
    rfl

theorem sumRest_outcome {sum : Worth} :
    (sumRest setting grammar sum state).outcome =
      match AddOp.ofKind? state.kind with
      | none => .ok ((sum, []), state)
      | some op => (do
        let (next, later) ← (term setting grammar state.advance).outcome
        let sum ← locate state.location (sum.add op next.root.worth)
        let ((total, rest), last) ← (sumRest setting grammar sum later).outcome
        .ok ((total, state.mark (.sum op) :: next :: rest), last)) := by
  rw [sumRest]
  split
  · rename_i none
    simp only [none]
    rfl
  · rename_i op some
    simp only [some, Step.outcome_since]
    refine Step.outcome_andThen fun next later _ => ?_
    dsimp only
    cases sum.add op next.root.worth with
    | error error => rfl
    | ok sum => exact Step.outcome_map

theorem term_outcome :
    (term setting grammar state).outcome =
      if state.kind = .minus then do
        let (first, later) ← (factor setting grammar state.advance).outcome
        let chain ← locate first.root.location (Chain.ofFactor grammar true first.root.worth)
        let ((chain, rest), last) ←
          (productRest setting grammar (isLiteral first) chain later).outcome
        .ok (.node {
          shape := .term, location := state.location
          worth := chain.finish } (state.mark .negation :: first :: rest), last)
      else (do
        let (first, later) ← (factor setting grammar state).outcome
        let chain ← locate first.root.location (Chain.ofFactor grammar false first.root.worth)
        let ((chain, rest), last) ←
          (productRest setting grammar (isLiteral first) chain later).outcome
        .ok (.node {
          shape := .term, location := state.location
          worth := chain.finish } (first :: rest), last)) := by
  rw [term]
  split
  · rw [Step.outcome_since]
    refine Step.outcome_andThen fun first later _ => ?_
    dsimp only
    cases Chain.ofFactor grammar true first.root.worth with
    | error error => rfl
    | ok chain => exact Step.outcome_map
  · refine Step.outcome_andThen fun first later _ => ?_
    dsimp only
    cases Chain.ofFactor grammar false first.root.worth with
    | error error => rfl
    | ok chain => exact Step.outcome_map

theorem productRest_outcome {afterLiteral : Bool} {chain : Chain} :
    (productRest setting grammar afterLiteral chain state).outcome =
      match MulOp.ofKind? state.kind with
      | some op => do
        let (next, later) ← (factor setting grammar state.advance).outcome
        let chain ← locate state.location (chain.apply op next.root.worth)
        let ((chain, rest), last) ←
          (productRest setting grammar (isLiteral next) chain later).outcome
        .ok ((chain, state.mark (.product op) :: next :: rest), last)
      | none =>
        if afterLiteral = true ∧ multipliesSilently setting.vocabulary grammar state then (do
          let (next, later) ← (factor setting grammar state).outcome
          let chain ← locate state.location (chain.apply .times next.root.worth)
          let ((chain, rest), last) ← (productRest setting grammar false chain later).outcome
          .ok ((chain, state.mark (.product .times) :: next :: rest), last))
        else .ok ((chain, []), state) := by
  rw [productRest]
  split
  · rename_i op some
    simp only [some, Step.outcome_since]
    refine Step.outcome_andThen fun next later _ => ?_
    dsimp only
    cases chain.apply op next.root.worth with
    | error error => rfl
    | ok chain => exact Step.outcome_map
  · rename_i none
    simp only [none]
    split
    · refine Step.outcome_andThen fun next later _ => ?_
      dsimp only
      cases chain.apply .times next.root.worth with
      | error error => rfl
      | ok chain => exact Step.outcome_map
    · rfl

theorem factor_outcome :
    (factor setting grammar state).outcome = (do
      let (atom, later) ← (atom setting grammar state).outcome
      let base := Worth.ofAtom grammar atom.root.worth
      if later.kind = .power then
        let (exponent, last) ← (exponent setting later.advance).outcome
        let raised ← locate exponent.root.location (base.power exponent.root.value)
        .ok (.node {
          shape := .factor, location := state.location
          worth := raised } [atom, later.mark .power, exponent], last)
      else .ok (.node {
        shape := .factor, location := state.location
        worth := base } [atom], later)) := by
  rw [factor]
  refine Step.outcome_andThen fun atom later _ => ?_
  dsimp only
  split
  · rw [Step.outcome_since]
    refine Step.outcome_andThen fun exponent last _ => ?_
    dsimp only
    cases (Worth.ofAtom grammar atom.root.worth).power exponent.root.value <;> rfl
  · rfl

theorem parenthesis_outcome {kind : Token.Kind} :
    ((expression setting grammar state).andThen fun inner later _ =>
      (later.expect kind).map fun _ => inner).outcome = (do
        let (inner, later) ← (expression setting grammar state).outcome
        let (_, last) ← (later.expect kind).outcome
        .ok (inner, last)) :=
  Step.outcome_andThen fun _ _ _ => Step.outcome_map

theorem atom_outcome :
    (atom setting grammar state).outcome =
      match grammar.opening? state.kind with
      | some .name => (name setting.vocabulary grammar state).outcome
      | some .literal => (literal state).outcome
      | some .parenthesis => do
        let (inner, later) ← (expression setting grammar state.advance).outcome
        let (_, last) ← (later.expect .closeParen).outcome
        .ok (inner, last)
      | some (.vector op) => do
        let (_, opened) ← (state.advance.expect .openParen).outcome
        let (left, later) ← (expression setting .quantity opened).outcome
        let (_, separated) ← (later.expect .comma).outcome
        let (right, last) ← (expression setting .quantity separated).outcome
        let (_, closed) ← (last.expect .closeParen).outcome
        let product ← locate state.location (Quantity.vectorProduct op
          left.root.worth.toQuantity right.root.worth.toQuantity
          (setting.vocabulary.dimension? Quantity.angleKey))
        .ok (.node {
          shape := .vector op, location := state.location
          worth := .quantity product } [left, right], closed)
      | none => .error (.unexpected (.factor grammar) state.current) := by
  rw [atom]
  split
  · rename_i opens
    rw [opens]
  · rename_i opens
    rw [opens]
  · rename_i opens
    rw [opens, Step.outcome_since]
    exact parenthesis_outcome
  · rename_i op opens
    rw [opens, Step.outcome_since]
    refine Step.outcome_andThen fun _ opened _ => ?_
    refine Step.outcome_andThen fun left later _ => ?_
    refine Step.outcome_andThen fun _ separated _ => ?_
    refine Step.outcome_andThen fun right last _ => ?_
    refine Step.outcome_andThen fun _ closed _ => ?_
    dsimp only
    cases Quantity.vectorProduct op left.root.worth.toQuantity right.root.worth.toQuantity
      (setting.vocabulary.dimension? Quantity.angleKey) <;> rfl
  · rename_i opens
    rw [opens]
    rfl

theorem exponent_outcome :
    (exponent setting state).outcome =
      if state.kind = .openParen then do
        let (inner, later) ← (expression setting .numeric state.advance).outcome
        let (_, last) ← (later.expect .closeParen).outcome
        .ok (inner, last)
      else (integer state).outcome := by
  rw [exponent]
  split
  · rw [Step.outcome_since]
    exact parenthesis_outcome
  · rfl

end Dimensional.Parser
