import Dimensional.Number.Literal
import Dimensional.Parser.Meaning
import Dimensional.Parser.State
import Dimensional.Scope
import Dimensional.Token.Scanner

/-! Reading expressions by recursive descent. A sum is made of terms, a term of factors with an
optional minus in front, and a factor of an atom and an optional exponent, which is an integer or a
numeric expression in parentheses. Every node is worth what its parts are worth together, and the
first operation that its operands do not admit ends the reading. -/
namespace Dimensional.Parser

/-- What names mean, and how many expressions may be open at once. -/
structure Setting where
  vocabulary : Vocabulary
  limit? : Option Nat

/-- How many expressions may be open at once unless something else is said. -/
def nestingLimit : Nat := 200

def Setting.standard (vocabulary : Vocabulary) : Setting := ⟨vocabulary, some nestingLimit⟩

/-- Open an expression, unless too many are open. -/
def State.enter (state : State) (limit? : Option Nat) : Step state Unit :=
  let opened := { state with depth := state.depth + 1 }
  match limit?.filter (· < opened.depth) with
  | some limit => ⟨.error (.tooDeep limit), opened, Nat.le_refl _⟩
  | none => ⟨.ok (), opened, Nat.le_refl _⟩

/-- Close an expression. -/
def State.leave (state : State) : Step state Unit :=
  ⟨.ok (), { state with depth := state.depth - 1 }, Nat.le_refl _⟩

/-- A node without parts for the next token. -/
def State.mark (state : State) (shape : Shape) : Expression :=
  .leaf { shape, location := state.location }

/-- Read a literal. -/
def literal (state : State) : Step state Expression :=
  state.take.andThen fun token _ _ =>
    match Number.read? token.text with
    | none => .fail (.invalidNumber token)
    | some value => .done (.leaf {
        shape := .number, location := token.location, worth := .quantity (.constant value) })

/-- The node of a name that stands for a quantity. -/
def nameNode (token : Token) (quantity : Quantity) (parameter? : Option Nat) : Expression :=
  .leaf {
    shape := .identifier, location := token.location, worth := .quantity quantity
    parameter?, identifier? := some token.text }

/-- Whether a name that stands for a quantity is free: neither known by its value, nor without
dimensions, nor a dimension itself. -/
def isFree (vocabulary : Vocabulary) (name : String) (quantity : Quantity) : Bool :=
  !quantity.isConstant && !quantity.isDimensionless && !vocabulary.knowsDimension name

/-- Read a name. Numeric expressions admit constants without dimensions; in quantities the free
names are numbered. -/
def name (vocabulary : Vocabulary) (grammar : Grammar) (state : State) : Step state Expression :=
  state.take.andThen fun token later _ =>
    match vocabulary.resolve? token.text, grammar with
    | none, _ => .fail (.unknownIdentifier token)
    | some quantity, .numeric =>
      if !quantity.isConstant then .fail (.notConstant token)
      else if !quantity.isDimensionless then
        .fail (.notDimensionless token quantity.dimensionText)
      else .done (nameNode token quantity none)
    | some quantity, .quantity =>
      if isFree vocabulary token.text quantity then
        let (number, numbering) := later.numbering.numberFor token.text
        ⟨.ok (nameNode token quantity (some number)), { later with numbering }, Nat.le_refl _⟩
      else .done (nameNode token quantity none)

/-- Read an integer exponent without its sign. -/
def magnitude (state : State) : Step state Expression :=
  if state.kind = .number then literal state else state.unexpected .exponent

/-- Read an integer exponent. -/
def integer (state : State) : Step state Expression :=
  if state.kind = .minus then
    .since state.remaining_advance_le <| (magnitude state.advance).map fun number =>
      .node {
        shape := .integer, location := state.location
        worth := .number (-1.0 * number.root.value) } [state.mark .negation, number]
  else (magnitude state).map fun number =>
    .node {
      shape := .integer, location := state.location
      worth := .number (1.0 * number.root.value) } [number]

/-- Whether a factor is a literal without an exponent. -/
def isLiteral (factor : Expression) : Bool :=
  match factor.children with
  | [atom] => atom.root.shape = .number
  | _ => false

/-- Whether a literal factor is multiplied by what follows without an operator: a quantity goes on
with the name of a dimension. -/
def multipliesSilently (vocabulary : Vocabulary) (grammar : Grammar) (state : State) : Bool :=
  grammar = .quantity && state.kind = .identifier &&
    vocabulary.knowsDimension state.current.text

private theorem advance_lt_of_addOp {state : State} {op : AddOp}
    (h : AddOp.ofKind? state.kind = some op) : state.advance.remaining < state.remaining :=
  State.remaining_advance_lt fun finished => by simp [finished, AddOp.ofKind?] at h

private theorem advance_lt_of_mulOp {state : State} {op : MulOp}
    (h : MulOp.ofKind? state.kind = some op) : state.advance.remaining < state.remaining :=
  State.remaining_advance_lt fun finished => by simp [finished, MulOp.ofKind?] at h

private theorem advance_lt_of_opening {grammar : Grammar} {state : State} {opening : Opening}
    (h : grammar.opening? state.kind = some opening) :
    state.advance.remaining < state.remaining :=
  State.remaining_advance_lt fun finished => by simp [finished, Grammar.opening?_eof] at h

private theorem advance_lt_of_kind {state : State} {kind : Token.Kind} (h : state.kind = kind)
    (continues : kind ≠ .eof) : state.advance.remaining < state.remaining :=
  State.remaining_advance_lt fun finished => continues (h.symm.trans finished)

mutual

/-- Read an expression. -/
def expression (setting : Setting) (grammar : Grammar) (state : State) : Step state Expression :=
  (state.enter setting.limit?).andThen fun _ opened _ =>
    if grammar.opens opened.kind then
      (term setting grammar opened).andThen fun first later _ =>
        (sumRest setting grammar first.root.worth later).andThen fun (sum, rest) last _ =>
          last.leave.map fun _ =>
            .node {
              shape := .expression grammar, location := opened.location
              worth := sum } (first :: rest)
    else opened.unexpected (.expression grammar)
termination_by 7 * state.remaining + 6

/-- Read the operators and terms after the first term of a sum. -/
def sumRest (setting : Setting) (grammar : Grammar) (sum : Worth) (state : State) :
    Step state (Worth × List Expression) :=
  match _ : AddOp.ofKind? state.kind with
  | none => .done (sum, [])
  | some op =>
    .since state.remaining_advance_le <|
      (term setting grammar state.advance).andThen fun next later _ =>
        match sum.add op next.root.worth with
        | .error error => .fail (.algebra error state.location)
        | .ok sum =>
          (sumRest setting grammar sum later).map fun (total, rest) =>
            (total, state.mark (.sum op) :: next :: rest)
termination_by 7 * state.remaining
decreasing_by
  all_goals
    have := advance_lt_of_addOp ‹_›
    omega

/-- Read a term. -/
def term (setting : Setting) (grammar : Grammar) (state : State) : Step state Expression :=
  if state.kind = .minus then
    .since state.remaining_advance_le <|
      (factor setting grammar state.advance).andThen fun first later _ =>
        match Chain.ofFactor grammar true first.root.worth with
        | .error error => .fail (.algebra error first.root.location)
        | .ok chain =>
          (productRest setting grammar (isLiteral first) chain later).map fun (chain, rest) =>
            .node {
              shape := .term, location := state.location
              worth := chain.finish } (state.mark .negation :: first :: rest)
  else
    (factor setting grammar state).andThen fun first later _ =>
      match Chain.ofFactor grammar false first.root.worth with
      | .error error => .fail (.algebra error first.root.location)
      | .ok chain =>
        (productRest setting grammar (isLiteral first) chain later).map fun (chain, rest) =>
          .node {
            shape := .term, location := state.location
            worth := chain.finish } (first :: rest)
termination_by 7 * state.remaining + 5
decreasing_by
  · have := state.remaining_advance_le
    omega
  · have := state.remaining_advance_le
    split <;> omega
  · omega
  · split <;> omega

/-- Read the operators and factors after a factor of a term. Whether that factor is a literal
decides if an operator may be left out. -/
def productRest (setting : Setting) (grammar : Grammar) (afterLiteral : Bool) (chain : Chain)
    (state : State) : Step state (Chain × List Expression) :=
  match _ : MulOp.ofKind? state.kind with
  | some op =>
    .since state.remaining_advance_le <|
      (factor setting grammar state.advance).andThen fun next later _ =>
        match chain.apply op next.root.worth with
        | .error error => .fail (.algebra error state.location)
        | .ok chain =>
          (productRest setting grammar (isLiteral next) chain later).map fun (chain, rest) =>
            (chain, state.mark (.product op) :: next :: rest)
  | none =>
    if _ : afterLiteral = true ∧ multipliesSilently setting.vocabulary grammar state then
      (factor setting grammar state).andThen fun next later _ =>
        match chain.apply .times next.root.worth with
        | .error error => .fail (.algebra error state.location)
        | .ok chain =>
          -- A factor that starts with a name is no literal.
          (productRest setting grammar false chain later).map fun (chain, rest) =>
            (chain, state.mark (.product .times) :: next :: rest)
    else .done (chain, [])
termination_by 7 * state.remaining + (if afterLiteral then 4 else 3)
decreasing_by
  · have := advance_lt_of_mulOp ‹_›
    split <;> omega
  · have := advance_lt_of_mulOp ‹_›
    split <;> split <;> omega
  · split <;> omega
  · have literal : afterLiteral = true := ‹afterLiteral = true ∧ _›.1
    simp only [literal, reduceIte]
    omega

/-- Read a factor. -/
def factor (setting : Setting) (grammar : Grammar) (state : State) : Step state Expression :=
  (atom setting grammar state).andThen fun atom later _ =>
    let base := Worth.ofAtom grammar atom.root.worth
    if _ : later.kind = .power then
      .since later.remaining_advance_le <|
        (exponent setting later.advance).andThen fun exponent _ _ =>
          match base.power exponent.root.value with
          | .error error => .fail (.algebra error exponent.root.location)
          | .ok raised =>
            .done (.node {
              shape := .factor, location := state.location
              worth := raised } [atom, later.mark .power, exponent])
    else
      .done (.node {
        shape := .factor, location := state.location
        worth := base } [atom])
termination_by 7 * state.remaining + 2
decreasing_by
  · omega
  · have := advance_lt_of_kind ‹_› (by decide)
    omega

/-- Read an atom: a name, a literal, an expression in parentheses or a vector product. -/
def atom (setting : Setting) (grammar : Grammar) (state : State) : Step state Expression :=
  match _ : grammar.opening? state.kind with
  | some .name => name setting.vocabulary grammar state
  | some .literal => literal state
  | some .parenthesis =>
    .since state.remaining_advance_le <|
      (expression setting grammar state.advance).andThen fun inner later _ =>
        (later.expect .closeParen).map fun _ => inner
  | some (.vector op) =>
    .since state.remaining_advance_le <|
      (state.advance.expect .openParen).andThen fun _ opened _ =>
        (expression setting .quantity opened).andThen fun left later _ =>
          (later.expect .comma).andThen fun _ separated _ =>
            (expression setting .quantity separated).andThen fun right last _ =>
              (last.expect .closeParen).andThen fun _ _ _ =>
                match Quantity.vectorProduct op left.root.worth.toQuantity
                    right.root.worth.toQuantity
                    (setting.vocabulary.dimension? Quantity.angleKey) with
                | .error error => .fail (.algebra error state.location)
                | .ok product =>
                  .done (.node {
                    shape := .vector op, location := state.location
                    worth := .quantity product } [left, right])
  | none => state.unexpected (.factor grammar)
termination_by 7 * state.remaining + 1
decreasing_by
  all_goals
    have := advance_lt_of_opening ‹_›
    omega

/-- Read an exponent: an integer, or a numeric expression in parentheses. -/
def exponent (setting : Setting) (state : State) : Step state Expression :=
  if _ : state.kind = .openParen then
    .since state.remaining_advance_le <|
      (expression setting .numeric state.advance).andThen fun inner later _ =>
        (later.expect .closeParen).map fun _ => inner
  else integer state
termination_by 7 * state.remaining
decreasing_by
  have := advance_lt_of_kind ‹_› (by decide)
  omega

end

end Dimensional.Parser
