import Dimensional.Proofs.Derivation.Evaluates

/-! What the parser accepts is derived: the tokens that it passes are those of a derivation in which
signs of multiplication are left out only where they may be, and it comes to what that derivation is
evaluated to, whatever stands behind those tokens. -/

namespace Dimensional.Parser

variable {setting : Setting} {grammar : Grammar} {state before after : State}

/-- The tokens between two states are derived, and evaluated to the value read there. -/
def Derived (setting : Setting) (category : Category) (carried : category.Carried) (before : State)
    (value : category.Evaluated) (after : State) : Prop :=
  ∃ derivation : Derivation category, derivation.Permitted setting.vocabulary ∧
    before.Spans derivation.tokens after ∧ after.depth = before.depth ∧
    derivation.Evaluates setting carried before.depth before.numbering value after.numbering

/-- The next token, known to be of a kind. -/
def State.terminal (state : State) {kind : Token.Kind} (h : state.kind = kind) : Terminal kind :=
  ⟨state.current, h⟩

theorem State.spans_terminal {kind : Token.Kind} (h : state.kind = kind) (continues : kind ≠ .eof) :
    state.Spans [(state.terminal h).val] state.advance :=
  State.spans_advance (h ▸ continues)

theorem State.Spans.current_eq_leading {derivation : Derivation category}
    (spans : before.Spans derivation.tokens after) (h : category.isRest = false) :
    before.current = derivation.leading := by
  rw [derivation.tokens_eq_leading_cons h] at spans
  exact spans.current

theorem State.Spans.location_eq {derivation : Derivation category}
    (spans : before.Spans derivation.tokens after) (h : category.isRest = false) :
    before.location = derivation.location :=
  congrArg Token.location (spans.current_eq_leading h)

theorem expression_shape {tree : Expression}
    (h : (expression setting grammar state).outcome = .ok (tree, after)) :
    tree.root.shape = .expression grammar := by
  rw [expression_outcome] at h
  obtain ⟨⟨_, opened⟩, _, h⟩ := Except.bind_eq_ok.mp h
  dsimp only at h
  split at h
  · obtain ⟨⟨first, later⟩, _, h⟩ := Except.bind_eq_ok.mp h
    obtain ⟨⟨⟨sum, rest⟩, last⟩, _, h⟩ := Except.bind_eq_ok.mp h
    cases h
    rfl
  · cases h

section Leaf

variable {tree : Expression}

theorem literal_recognized (isNumber : state.kind = .number)
    (h : (literal state).outcome = .ok (tree, after)) :
    Derived setting (.atom grammar true) () state tree after := by
  rw [literal_outcome] at h
  obtain ⟨_, found, same⟩ := Except.map_eq_ok.mp h
  cases same
  exact ⟨.literal (state.terminal isNumber), trivial, State.spans_terminal isNumber nofun, rfl,
    .literal found⟩

theorem name_recognized (isName : state.kind = .identifier)
    (h : (name setting.vocabulary grammar state).outcome = .ok (tree, after)) :
    Derived setting (.atom grammar false) () state tree after := by
  rw [name_outcome] at h
  obtain ⟨_, named, same⟩ := Except.map_eq_ok.mp h
  cases same
  exact ⟨.name (state.terminal isName), trivial, State.spans_terminal isName nofun, rfl,
    .name named⟩

theorem magnitude_eq_ok (h : (magnitude state).outcome = .ok (tree, after)) :
    state.kind = .number ∧ literalNode state.current = .ok tree ∧ after = state.advance := by
  rw [magnitude_outcome] at h
  split at h
  · obtain ⟨_, found, same⟩ := Except.map_eq_ok.mp h
    cases same
    exact ⟨‹_›, found, rfl⟩
  · cases h

theorem integer_recognized (h : (integer state).outcome = .ok (tree, after)) :
    Derived setting .exponent () state tree after := by
  rw [integer_outcome] at h
  split at h
  · rename_i isMinus
    obtain ⟨⟨number, last⟩, read, same⟩ := Except.bind_eq_ok.mp h
    obtain ⟨isNumber, found, rfl⟩ := magnitude_eq_ok read
    cases same
    exact ⟨.negativeInteger (state.terminal isMinus) (state.advance.terminal isNumber), trivial,
      (State.spans_terminal isMinus nofun).trans (State.spans_terminal isNumber nofun), rfl,
      .negativeInteger found⟩
  · obtain ⟨⟨number, last⟩, read, same⟩ := Except.bind_eq_ok.mp h
    obtain ⟨isNumber, found, rfl⟩ := magnitude_eq_ok read
    cases same
    exact ⟨.integer (state.terminal isNumber), trivial, State.spans_terminal isNumber nofun, rfl,
      .integer found⟩

end Leaf

namespace Derived

variable {middle last : State} {tree head operand left right : Expression} {tail : List Expression}

theorem expression {total : Worth} (allowed : allowNesting setting.limit? before.depth = .ok ())
    (first : Derived setting (.term grammar) () before.opened head middle)
    (rest : Derived setting (.sumRest grammar) head.root.worth middle (total, tail) after) :
    Derived setting (.expression grammar) () before
      (.node {
        shape := .expression grammar, location := before.location
        worth := total } (head :: tail)) after.closed := by
  obtain ⟨first, permitted, spans, same, read⟩ := first
  obtain ⟨rest, others, more, kept, evaluated⟩ := rest
  have whole : before.Spans (first.tokens ++ rest.tokens) after.closed := spans.trans more
  have place : before.location = first.location := spans.location_eq rfl
  have closed : after.closed.depth = before.depth := by
    rw [State.closed, kept, same]
    rfl
  rw [same] at evaluated
  rw [place]
  exact ⟨.expression first rest, ⟨permitted, others⟩, whole, closed,
    .expression allowed read evaluated⟩

theorem lastTerm {sum : Worth} : Derived setting (.sumRest grammar) sum state (sum, []) state :=
  ⟨.lastTerm, trivial, .refl state, rfl, .lastTerm⟩

theorem sum {op : AddOp} {carried total result : Worth} (sign : state.kind = op.kind)
    (next : Derived setting (.term grammar) () state.advance operand middle)
    (added : carried.add op operand.root.worth = .ok total)
    (rest : Derived setting (.sumRest grammar) total middle (result, tail) after) :
    Derived setting (.sumRest grammar) carried state
      (result, state.mark (.sum op) :: operand :: tail) after := by
  obtain ⟨next, permitted, spans, same, read⟩ := next
  obtain ⟨rest, others, more, kept, evaluated⟩ := rest
  rw [same] at evaluated
  exact ⟨.sum op (state.terminal sign) next rest, ⟨permitted, others⟩,
    (State.spans_terminal sign op.kind_ne_eof).trans (spans.trans more), kept.trans same,
    .sum read added evaluated⟩

theorem term {isNumber : Bool} {chain total : Chain}
    (first : Derived setting (.factor grammar isNumber) () before head middle)
    (begun : Chain.ofFactor grammar false head.root.worth = .ok chain)
    (rest : Derived setting (.productRest grammar isNumber) chain middle (total, tail) after) :
    Derived setting (.term grammar) () before
      (.node {
        shape := .term, location := before.location
        worth := total.finish } (head :: tail)) after := by
  obtain ⟨first, permitted, spans, same, read⟩ := first
  obtain ⟨rest, others, more, kept, evaluated⟩ := rest
  have place : before.location = first.location := spans.location_eq rfl
  rw [same] at evaluated
  rw [place]
  exact ⟨.term first rest, ⟨permitted, others⟩, spans.trans more, kept.trans same,
    .term read begun evaluated⟩

theorem negated {isNumber : Bool} {chain total : Chain} (minus : state.kind = .minus)
    (first : Derived setting (.factor grammar isNumber) () state.advance head middle)
    (begun : Chain.ofFactor grammar true head.root.worth = .ok chain)
    (rest : Derived setting (.productRest grammar isNumber) chain middle (total, tail) after) :
    Derived setting (.term grammar) () state
      (.node {
        shape := .term, location := state.location
        worth := total.finish } (state.mark .negation :: head :: tail)) after := by
  obtain ⟨first, permitted, spans, same, read⟩ := first
  obtain ⟨rest, others, more, kept, evaluated⟩ := rest
  rw [same] at evaluated
  exact ⟨.negated (state.terminal minus) first rest, ⟨permitted, others⟩,
    (State.spans_terminal minus nofun).trans (spans.trans more), kept.trans same,
    .negated read begun evaluated⟩

theorem lastFactor {afterLiteral : Bool} {chain : Chain} :
    Derived setting (.productRest grammar afterLiteral) chain state (chain, []) state :=
  ⟨.lastFactor, trivial, .refl state, rfl, .lastFactor⟩

theorem product {op : MulOp} {isNumber afterLiteral : Bool} {chain extended total : Chain}
    (sign : state.kind = op.kind)
    (next : Derived setting (.factor grammar isNumber) () state.advance operand middle)
    (applied : chain.apply op operand.root.worth = .ok extended)
    (rest : Derived setting (.productRest grammar isNumber) extended middle (total, tail) after) :
    Derived setting (.productRest grammar afterLiteral) chain state
      (total, state.mark (.product op) :: operand :: tail) after := by
  obtain ⟨next, permitted, spans, same, read⟩ := next
  obtain ⟨rest, others, more, kept, evaluated⟩ := rest
  rw [same] at evaluated
  exact ⟨.product op (state.terminal sign) next rest, ⟨permitted, others⟩,
    (State.spans_terminal sign op.kind_ne_eof).trans (spans.trans more), kept.trans same,
    .product read applied evaluated⟩

/-- A factor that starts with a name is no number. -/
theorem silent {isNumber : Bool} {chain extended total : Chain} (isName : before.kind = .identifier)
    (known : setting.vocabulary.knowsDimension before.current.text)
    (next : Derived setting (.factor .quantity isNumber) () before operand middle)
    (applied : chain.apply .times operand.root.worth = .ok extended)
    (rest : Derived setting (.productRest .quantity false) extended middle (total, tail) after) :
    Derived setting (.productRest .quantity true) chain before
      (total, before.mark (.product .times) :: operand :: tail) after := by
  obtain ⟨next, permitted, spans, same, read⟩ := next
  obtain ⟨rest, others, more, kept, evaluated⟩ := rest
  have starts : before.current = next.leading := spans.current_eq_leading rfl
  have isName' : next.leading.kind = .identifier := starts ▸ isName
  cases isNumber with
  | true =>
    rw [next.leading_kind_of_literal] at isName'
    cases isName'
  | false =>
    have mark : before.mark (.product .times) = signLeaf (.product .times) next.leading := by
      rw [← starts]
      rfl
    rw [same] at evaluated
    rw [mark]
    exact ⟨.silent next rest, ⟨⟨isName', starts ▸ known⟩, permitted, others⟩, spans.trans more,
      kept.trans same, .silent read applied evaluated⟩

theorem factor {isNumber : Bool} {atom : Expression}
    (base : Derived setting (.atom grammar isNumber) () before atom after) :
    Derived setting (.factor grammar isNumber) () before
      (.node {
        shape := .factor, location := before.location
        worth := Worth.ofAtom grammar atom.root.worth } [atom]) after := by
  obtain ⟨base, permitted, spans, same, read⟩ := base
  have place : before.location = base.location := spans.location_eq rfl
  rw [place]
  exact ⟨.factor base, permitted, spans, same, .factor read⟩

theorem raised {isNumber : Bool} {atom power : Expression} {raised : Worth}
    (base : Derived setting (.atom grammar isNumber) () before atom middle)
    (sign : middle.kind = .power)
    (exponent : Derived setting .exponent () middle.advance power after)
    (operated : (Worth.ofAtom grammar atom.root.worth).power power.root.value = .ok raised) :
    Derived setting (.factor grammar false) () before
      (.node {
        shape := .factor, location := before.location
        worth := raised } [atom, middle.mark .power, power]) after := by
  obtain ⟨base, permitted, spans, same, read⟩ := base
  obtain ⟨exponent, others, more, kept, evaluated⟩ := exponent
  have place : before.location = base.location := spans.location_eq rfl
  have depth : middle.advance.depth = before.depth := same
  rw [depth] at evaluated
  rw [place]
  exact ⟨.raised base (middle.terminal sign) exponent, ⟨permitted, others⟩,
    spans.trans ((State.spans_terminal sign nofun).trans more), kept.trans same,
    .raised read evaluated operated⟩

theorem parenthesized (opening : state.kind = .openParen)
    (inner : Derived setting (.expression grammar) () state.advance tree middle)
    (closing : middle.kind = .closeParen) :
    Derived setting (.atom grammar false) () state tree middle.advance := by
  obtain ⟨inner, permitted, spans, same, read⟩ := inner
  exact ⟨.parenthesized (state.terminal opening) inner (middle.terminal closing), permitted,
    (State.spans_terminal opening nofun).trans (spans.trans (State.spans_terminal closing nofun)),
    same, .parenthesized read⟩

theorem grouped (opening : state.kind = .openParen)
    (inner : Derived setting (.expression .numeric) () state.advance tree middle)
    (closing : middle.kind = .closeParen) :
    Derived setting .exponent () state tree middle.advance := by
  obtain ⟨inner, permitted, spans, same, read⟩ := inner
  exact ⟨.grouped (state.terminal opening) inner (middle.terminal closing), permitted,
    (State.spans_terminal opening nofun).trans (spans.trans (State.spans_terminal closing nofun)),
    same, .grouped read⟩

theorem vector {op : VectorOp} {product : Quantity} (keyword : state.kind = op.kind)
    (opening : state.advance.kind = .openParen)
    (first : Derived setting (.expression .quantity) () state.advance.advance left middle)
    (comma : middle.kind = .comma)
    (second : Derived setting (.expression .quantity) () middle.advance right last)
    (closing : last.kind = .closeParen)
    (operated : Quantity.vectorProduct op left.root.worth.toQuantity right.root.worth.toQuantity
      (setting.vocabulary.dimension? Quantity.angleKey) = .ok product) :
    Derived setting (.atom .quantity false) () state
      (.node {
        shape := .vector op, location := state.location
        worth := .quantity product } [left, right]) last.advance := by
  obtain ⟨first, permitted, spans, same, read⟩ := first
  obtain ⟨second, others, more, kept, evaluated⟩ := second
  have starts := (State.spans_terminal keyword op.kind_ne_eof).trans
    (State.spans_terminal opening nofun)
  have ends := more.trans (State.spans_terminal closing nofun)
  have depth : middle.advance.depth = state.advance.advance.depth := same
  rw [depth] at evaluated
  exact ⟨.vector op (state.terminal keyword) (state.advance.terminal opening) first
    (middle.terminal comma) second (last.terminal closing), ⟨permitted, others⟩,
    starts.trans (spans.trans ((State.spans_terminal comma nofun).trans ends)), kept.trans same,
    .vector read evaluated operated⟩

end Derived

/-- The induction follows the calls of the parser. -/
theorem recognized (setting : Setting) :
    (∀ grammar state tree after, (expression setting grammar state).outcome = .ok (tree, after) →
      Derived setting (.expression grammar) () state tree after) ∧
    (∀ grammar sum state value after,
      (sumRest setting grammar sum state).outcome = .ok (value, after) →
        Derived setting (.sumRest grammar) sum state value after) ∧
    (∀ grammar state tree after, (term setting grammar state).outcome = .ok (tree, after) →
      Derived setting (.term grammar) () state tree after) ∧
    (∀ grammar afterLiteral chain state value after,
      (productRest setting grammar afterLiteral chain state).outcome = .ok (value, after) →
        Derived setting (.productRest grammar afterLiteral) chain state value after) ∧
    (∀ grammar state tree after, (factor setting grammar state).outcome = .ok (tree, after) →
      Derived setting (.factor grammar (isLiteral tree)) () state tree after) ∧
    (∀ state tree after, (exponent setting state).outcome = .ok (tree, after) →
      Derived setting .exponent () state tree after) ∧
    (∀ grammar state tree after, (atom setting grammar state).outcome = .ok (tree, after) →
      Derived setting (.atom grammar (tree.root.shape = .number)) () state tree after) := by
  refine expression.mutual_induct setting _ _ _ _ _ _ _ ?expression ?lastTerm ?sum ?negated ?term
    ?product ?silent ?lastFactor ?factor ?grouped ?integer ?name ?literal ?parenthesized ?vector
    ?nothing
  case expression =>
    intro grammar state ihTerm ihRest tree after h
    rw [expression_outcome] at h
    obtain ⟨⟨_, opened⟩, entered, h⟩ := Except.bind_eq_ok.mp h
    obtain ⟨allowed, rfl⟩ := State.enter_eq_ok entered
    dsimp only at h
    split at h
    · obtain ⟨⟨first, later⟩, read, h⟩ := Except.bind_eq_ok.mp h
      obtain ⟨⟨⟨sum, rest⟩, last⟩, more, h⟩ := Except.bind_eq_ok.mp h
      cases h
      have head := ihTerm state.opened (Nat.le_refl _) first later read
      have tail := ihRest state.opened (Nat.le_refl _) first later
        (Step.remaining_le_of_outcome read) _ last more
      exact head.expression allowed tail
    · cases h
  case lastTerm =>
    intro grammar sum state none _ after h
    rw [sumRest_outcome, none] at h
    cases h
    exact .lastTerm
  case sum =>
    intro grammar sum state op some ihTerm ihRest _ after h
    rw [sumRest_outcome, some] at h
    obtain ⟨⟨next, later⟩, read, h⟩ := Except.bind_eq_ok.mp h
    obtain ⟨sum, added, h⟩ := Except.bind_eq_ok.mp h
    obtain ⟨⟨⟨total, rest⟩, last⟩, more, h⟩ := Except.bind_eq_ok.mp h
    cases h
    exact .sum (AddOp.ofKind?_eq_some_iff.mp some) (ihTerm next later read)
      (locate_eq_ok.mp added) (ihRest later (Step.remaining_le_of_outcome read) sum _ _ more)
  case negated =>
    intro grammar state minus ihFactor ihRest _ after h
    rw [term_outcome, if_pos minus] at h
    obtain ⟨⟨first, later⟩, read, h⟩ := Except.bind_eq_ok.mp h
    obtain ⟨chain, begun, h⟩ := Except.bind_eq_ok.mp h
    obtain ⟨⟨⟨total, rest⟩, last⟩, more, h⟩ := Except.bind_eq_ok.mp h
    cases h
    exact .negated minus (ihFactor first later read) (locate_eq_ok.mp begun)
      (ihRest first later (Step.remaining_le_of_outcome read) chain _ _ more)
  case term =>
    intro grammar state plain ihFactor ihRest _ after h
    rw [term_outcome, if_neg plain] at h
    obtain ⟨⟨first, later⟩, read, h⟩ := Except.bind_eq_ok.mp h
    obtain ⟨chain, begun, h⟩ := Except.bind_eq_ok.mp h
    obtain ⟨⟨⟨total, rest⟩, last⟩, more, h⟩ := Except.bind_eq_ok.mp h
    cases h
    exact .term (ihFactor first later read) (locate_eq_ok.mp begun)
      (ihRest first later (Step.remaining_le_of_outcome read) chain _ _ more)
  case product =>
    intro grammar afterLiteral chain state op some ihFactor ihRest _ after h
    rw [productRest_outcome, some] at h
    obtain ⟨⟨next, later⟩, read, h⟩ := Except.bind_eq_ok.mp h
    obtain ⟨chain, applied, h⟩ := Except.bind_eq_ok.mp h
    obtain ⟨⟨⟨total, rest⟩, last⟩, more, h⟩ := Except.bind_eq_ok.mp h
    cases h
    exact .product (MulOp.ofKind?_eq_some_iff.mp some) (ihFactor next later read)
      (locate_eq_ok.mp applied)
      (ihRest next later (Step.remaining_le_of_outcome read) chain _ _ more)
  case silent =>
    intro grammar afterLiteral chain state none silently ihFactor ihRest _ after h
    rw [productRest_outcome, none] at h
    simp only [if_pos silently] at h
    obtain ⟨⟨next, later⟩, read, h⟩ := Except.bind_eq_ok.mp h
    obtain ⟨chain, applied, h⟩ := Except.bind_eq_ok.mp h
    obtain ⟨⟨⟨total, rest⟩, last⟩, more, h⟩ := Except.bind_eq_ok.mp h
    cases h
    obtain ⟨rfl, silently⟩ := silently
    simp only [multipliesSilently, Bool.and_eq_true, decide_eq_true_eq] at silently
    obtain ⟨⟨rfl, isName⟩, known⟩ := silently
    exact .silent isName known (ihFactor next later read) (locate_eq_ok.mp applied)
      (ihRest later (Step.remaining_le_of_outcome read) chain _ _ more)
  case lastFactor =>
    intro grammar afterLiteral chain state none signed _ after h
    rw [productRest_outcome, none] at h
    simp only [if_neg signed] at h
    cases h
    exact .lastFactor
  case factor =>
    intro grammar state ihAtom ihExponent _ after h
    rw [factor_outcome] at h
    obtain ⟨⟨base, later⟩, read, h⟩ := Except.bind_eq_ok.mp h
    dsimp only at h
    split at h
    · rename_i power
      obtain ⟨⟨exponent, last⟩, more, h⟩ := Except.bind_eq_ok.mp h
      obtain ⟨raised, operated, h⟩ := Except.bind_eq_ok.mp h
      cases h
      exact (ihAtom base later read).raised power
        (ihExponent later (Step.remaining_le_of_outcome read) power exponent _ more)
        (locate_eq_ok.mp operated)
    · cases h
      exact (ihAtom base _ read).factor
  case grouped =>
    intro state opening ihExpression _ after h
    rw [exponent_outcome, if_pos opening] at h
    obtain ⟨⟨inner, later⟩, read, h⟩ := Except.bind_eq_ok.mp h
    obtain ⟨⟨_, last⟩, closed, h⟩ := Except.bind_eq_ok.mp h
    obtain ⟨closing, _, rfl⟩ := State.expect_eq_ok closed
    cases h
    exact .grouped opening (ihExpression _ later read) closing
  case integer =>
    intro state plain _ after h
    rw [exponent_outcome, if_neg plain] at h
    exact integer_recognized h
  case name =>
    intro grammar state opens tree after h
    simp only [atom_outcome, opens] at h
    have shape : tree.root.shape = .identifier := by
      rw [name_outcome] at h
      obtain ⟨⟨_, numbering⟩, named, same⟩ := Except.map_eq_ok.mp h
      cases same
      exact namedNode_shape named
    change Derived _ (.atom grammar (decide (tree.root.shape = .number))) () state tree after
    rw [shape]
    exact name_recognized (Grammar.opening?_name_iff.mp opens) h
  case literal =>
    intro grammar state opens tree after h
    simp only [atom_outcome, opens] at h
    have shape : tree.root.shape = .number := by
      rw [literal_outcome] at h
      obtain ⟨_, number, same⟩ := Except.map_eq_ok.mp h
      cases same
      exact literalNode_shape number
    change Derived _ (.atom grammar (decide (tree.root.shape = .number))) () state tree after
    rw [shape]
    exact literal_recognized (Grammar.opening?_literal_iff.mp opens) h
  case parenthesized =>
    intro grammar state opens ihExpression tree after h
    simp only [atom_outcome, opens] at h
    obtain ⟨⟨inner, later⟩, read, h⟩ := Except.bind_eq_ok.mp h
    obtain ⟨⟨_, last⟩, closed, h⟩ := Except.bind_eq_ok.mp h
    obtain ⟨closing, _, rfl⟩ := State.expect_eq_ok closed
    cases h
    change Derived _ (.atom grammar (decide (inner.root.shape = .number))) () state inner later.advance
    rw [expression_shape read]
    exact .parenthesized (Grammar.opening?_parenthesis_iff.mp opens) (ihExpression inner later read)
      closing
  case vector =>
    intro grammar state op opens ihLeft ihRight tree after h
    simp only [atom_outcome, opens] at h
    obtain ⟨⟨_, opened⟩, started, h⟩ := Except.bind_eq_ok.mp h
    obtain ⟨opening, _, rfl⟩ := State.expect_eq_ok started
    obtain ⟨⟨left, later⟩, read, h⟩ := Except.bind_eq_ok.mp h
    obtain ⟨⟨_, separated⟩, parted, h⟩ := Except.bind_eq_ok.mp h
    obtain ⟨comma, _, rfl⟩ := State.expect_eq_ok parted
    obtain ⟨⟨right, last⟩, more, h⟩ := Except.bind_eq_ok.mp h
    obtain ⟨⟨_, closed⟩, ended, h⟩ := Except.bind_eq_ok.mp h
    obtain ⟨closing, _, rfl⟩ := State.expect_eq_ok ended
    obtain ⟨product, operated, h⟩ := Except.bind_eq_ok.mp h
    cases h
    obtain ⟨rfl, keyword⟩ := Grammar.opening?_vector_iff.mp opens
    exact .vector keyword opening (ihLeft _ (State.remaining_advance_le _) left later read) comma
      (ihRight _ (State.remaining_advance_le _) later (Step.remaining_le_of_outcome read) _
        (State.remaining_advance_le _) right last more) closing (locate_eq_ok.mp operated)
  case nothing =>
    intro grammar state closed tree after h
    simp only [atom_outcome, closed] at h
    cases h

end Dimensional.Parser
