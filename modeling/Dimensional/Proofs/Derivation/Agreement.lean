import Dimensional.Proofs.Derivation.Evaluation

/-! The parser reads what is derived: on the tokens of a derivation, followed by one that does not
continue it, the parser comes to what the derivation is evaluated to, errors included. -/

namespace Dimensional

open Dimensional.Parser

variable {setting : Setting} {state : State} {grammar : Grammar} {rest : List Token}

/-- The function that reads what is derived. -/
def Category.read (setting : Setting) :
    (category : Category) → category.Carried → State →
      Except ParseError (category.Evaluated × State)
  | .expression grammar, _, state => (Parser.expression setting grammar state).outcome
  | .sumRest grammar, sum, state => (Parser.sumRest setting grammar sum state).outcome
  | .term grammar, _, state => (Parser.term setting grammar state).outcome
  | .productRest grammar afterLiteral, chain, state =>
    (Parser.productRest setting grammar afterLiteral chain state).outcome
  | .factor grammar _, _, state => (Parser.factor setting grammar state).outcome
  | .atom grammar _, _, state => (Parser.atom setting grammar state).outcome
  | .exponent, _, state => (Parser.exponent setting state).outcome

/-- Which tokens do not continue what has been derived. -/
def Category.EndsBefore : Category → Token.Kind → Prop
  | .expression _, kind | .sumRest _, kind =>
    kind ≠ .power ∧ kind ≠ .identifier ∧ MulOp.ofKind? kind = none ∧ AddOp.ofKind? kind = none
  | .term _, kind | .productRest _ _, kind =>
    kind ≠ .power ∧ kind ≠ .identifier ∧ MulOp.ofKind? kind = none
  | .factor _ _, kind => kind ≠ .power
  | .atom _ _, _ | .exponent, _ => True

namespace Derivation

/-- The state before a derivation sees its first token. -/
theorem current_withAhead (derivation : Derivation category) (h : category.isRest = false) :
    (state.withAhead (derivation.tokens ++ rest)).current = derivation.leading := by
  rw [derivation.tokens_eq_leading_cons h]
  rfl

theorem kind_withAhead (derivation : Derivation category) (h : category.isRest = false) :
    (state.withAhead (derivation.tokens ++ rest)).kind = derivation.leading.kind :=
  congrArg Token.kind (derivation.current_withAhead h)

theorem location_withAhead (derivation : Derivation category) (h : category.isRest = false) :
    (state.withAhead (derivation.tokens ++ rest)).location = derivation.location :=
  congrArg Token.location (derivation.current_withAhead h)

/-- No factor is raised by what may stand after it in a term. -/
theorem factor_endsBefore (more : Derivation (.productRest grammar afterLiteral))
    (permitted : more.Permitted vocabulary)
    (ends : (Category.term grammar).EndsBefore (state.withAhead rest).kind) :
    (state.withAhead (more.tokens ++ rest)).kind ≠ .power := by
  cases more with
  | lastFactor => exact ends.1
  | product op sign next more =>
    rw [tokens, List.cons_append, State.kind_withAhead, sign.property]
    cases op <;> simp [MulOp.kind]
  | silent next more =>
    rw [tokens, List.append_assoc, next.kind_withAhead rfl, permitted.1.1]
    simp

/-- No term goes on with what may stand after it in a sum. -/
theorem term_endsBefore (more : Derivation (.sumRest grammar))
    (ends : (Category.expression grammar).EndsBefore (state.withAhead rest).kind) :
    (Category.term grammar).EndsBefore (state.withAhead (more.tokens ++ rest)).kind := by
  cases more with
  | lastTerm => exact ⟨ends.1, ends.2.1, ends.2.2.1⟩
  | sum op sign next more =>
    rw [tokens, List.cons_append, State.kind_withAhead, sign.property]
    cases op <;> simp [Category.EndsBefore, AddOp.kind, MulOp.ofKind?]

end Derivation

section Terminal

variable {kind : Token.Kind}

theorem Parser.State.advance_terminal (token : Terminal kind) (continues : kind ≠ .eof) :
    (state.withAhead (token.val :: rest)).advance = state.withAhead rest := by
  have goesOn : token.val.kind ≠ .eof := by rwa [token.property]
  exact State.advance_withAhead goesOn

theorem Parser.State.expect_terminal (token : Terminal kind) (continues : kind ≠ .eof) :
    ((state.withAhead (token.val :: rest)).expect kind).outcome =
      .ok (token.val, state.withAhead rest) := by
  have found : (state.withAhead (token.val :: rest)).kind = kind := token.property
  rw [State.expect_outcome, if_pos found, State.advance_terminal token continues,
    State.current_withAhead]

/-- Expressions end before what closes or separates them. -/
theorem expression_endsBefore (token : Terminal kind) (h : kind = .comma ∨ kind = .closeParen) :
    (Category.expression grammar).EndsBefore (state.withAhead (token.val :: rest)).kind := by
  rw [State.kind_withAhead, token.property]
  rcases h with rfl | rfl
  · simp [Category.EndsBefore, MulOp.ofKind?, AddOp.ofKind?]
  · simp [Category.EndsBefore, MulOp.ofKind?, AddOp.ofKind?]

end Terminal

/-- What evaluation gives, and the state behind the tokens. -/
def Category.reached (category : Category) (state : State) (rest : List Token)
    (outcome : Except ParseError (category.Evaluated × Numbering)) :
    Except ParseError (category.Evaluated × State) :=
  outcome.map fun evaluated =>
    (evaluated.1, (state.withNumbering evaluated.2).withAhead rest)

/-- An operation that reading and evaluation have in common. -/
theorem Category.bind_reached (category : Category) {x : Except ParseError α}
    {f : α → Except ParseError (category.Evaluated × State)}
    {g : α → Except ParseError (category.Evaluated × Numbering)}
    (h : ∀ value, x = .ok value → f value = category.reached state rest (g value)) :
    x >>= f = category.reached state rest (x >>= g) := by
  cases x with
  | error error => rfl
  | ok value => exact h value rfl

/-- Where reading and evaluation agree on a part, they go on alike. -/
theorem Category.read_bind (category : Category) {part : Category} {opened : State} {more : List Token}
    {outcome : Except ParseError (part.Evaluated × State)}
    {x : Except ParseError (part.Evaluated × Numbering)}
    {f : part.Evaluated × State → Except ParseError (category.Evaluated × State)}
    {g : part.Evaluated × Numbering → Except ParseError (category.Evaluated × Numbering)}
    (agrees : outcome = part.reached opened more x)
    (h : ∀ value numbering, x = .ok (value, numbering) →
      f (value, (opened.withNumbering numbering).withAhead more) =
        category.reached state rest (g (value, numbering))) :
    outcome >>= f = category.reached state rest (x >>= g) := by
  subst agrees
  cases x with
  | error error => rfl
  | ok evaluated => exact h evaluated.1 evaluated.2 rfl

/-- The parser agrees with a derivation before all tokens that do not continue it. -/
def Derivation.Agrees (setting : Setting) (derivation : Derivation category) : Prop :=
  ∀ carried state rest, category.EndsBefore (state.withAhead rest).kind →
    category.read setting carried (state.withAhead (derivation.tokens ++ rest)) =
      category.reached state rest
        (derivation.evaluate setting carried state.depth state.numbering)

namespace Derivation.Agrees

theorem expression {first : Derivation (.term grammar)} {more : Derivation (.sumRest grammar)}
    (agrees : first.Agrees setting) (others : more.Agrees setting) :
    (Derivation.expression first more).Agrees setting := by
  intro _ state rest ends
  have opens : grammar.opens (state.withAhead (first.tokens ++ (more.tokens ++ rest))).kind := by
    rw [first.kind_withAhead rfl]
    exact first.opens_leading
  have place : (state.withAhead (first.tokens ++ (more.tokens ++ rest))).location =
      first.location := first.location_withAhead rfl
  change (Parser.expression setting grammar _).outcome = _
  rw [tokens, List.append_assoc, expression_outcome, State.enter_outcome, evaluate,
    State.depth_withAhead]
  cases allowNesting setting.limit? state.depth with
  | error error => rfl
  | ok =>
    rw [Except.ok_bind, ← place]
    refine (if_pos opens).trans ?_
    refine Category.read_bind (.expression grammar)
      (agrees () state.opened _ (term_endsBefore more ends)) fun tree numbering _ => ?_
    exact Category.read_bind (.expression grammar)
      (others tree.root.worth (state.opened.withNumbering numbering) rest ends) fun _ _ _ => rfl

theorem lastTerm : (Derivation.lastTerm : Derivation (.sumRest grammar)).Agrees setting := by
  intro sum state rest ends
  have none : AddOp.ofKind? (state.withAhead rest).kind = none := ends.2.2.2
  change (Parser.sumRest setting grammar sum (state.withAhead rest)).outcome = _
  rw [sumRest_outcome, none]
  rfl

theorem sum {op : AddOp} {sign : Terminal op.kind} {next : Derivation (.term grammar)}
    {more : Derivation (.sumRest grammar)} (agrees : next.Agrees setting)
    (others : more.Agrees setting) : (Derivation.sum op sign next more).Agrees setting := by
  intro sum state rest ends
  have some : AddOp.ofKind? sign.val.kind = some op :=
    AddOp.ofKind?_eq_some_iff.mpr sign.property
  change (Parser.sumRest setting grammar sum _).outcome = _
  rw [tokens, List.cons_append, List.append_assoc, sumRest_outcome, State.kind_withAhead, some,
    State.advance_terminal sign op.kind_ne_eof, evaluate]
  refine Category.read_bind (.sumRest grammar) (agrees () state _ (term_endsBefore more ends))
    fun tree numbering _ => ?_
  refine Category.bind_reached (.sumRest grammar) fun total _ => ?_
  exact Category.read_bind (.sumRest grammar)
    (others total (state.withNumbering numbering) rest ends) fun _ _ _ => rfl

theorem term {first : Derivation (.factor grammar isNumber)}
    {more : Derivation (.productRest grammar isNumber)} (permitted : more.Permitted setting.vocabulary)
    (agrees : first.Agrees setting) (others : more.Agrees setting) :
    (Derivation.term first more).Agrees setting := by
  intro _ state rest ends
  have plain : (state.withAhead (first.tokens ++ (more.tokens ++ rest))).kind ≠ .minus := by
    rw [first.kind_withAhead rfl]
    exact first.leading_kind_ne_minus
  have place : (state.withAhead (first.tokens ++ (more.tokens ++ rest))).location =
      first.location := first.location_withAhead rfl
  change (Parser.term setting grammar _).outcome = _
  rw [tokens, List.append_assoc, term_outcome, if_neg plain, evaluate, ← place]
  refine Category.read_bind (.term grammar)
    (agrees () state _ (factor_endsBefore more permitted ends)) fun tree numbering read => ?_
  refine Category.bind_reached (.term grammar) fun chain _ => ?_
  dsimp only
  rw [isLiteral_of_evaluate read]
  exact Category.read_bind (.term grammar)
    (others chain (state.withNumbering numbering) rest ends) fun _ _ _ => rfl

theorem negated {minus : Terminal .minus} {first : Derivation (.factor grammar isNumber)}
    {more : Derivation (.productRest grammar isNumber)} (permitted : more.Permitted setting.vocabulary)
    (agrees : first.Agrees setting) (others : more.Agrees setting) :
    (Derivation.negated minus first more).Agrees setting := by
  intro _ state rest ends
  change (Parser.term setting grammar _).outcome = _
  rw [tokens, List.cons_append, List.append_assoc, term_outcome, State.kind_withAhead,
    if_pos minus.property, State.advance_terminal minus nofun, evaluate]
  refine Category.read_bind (.term grammar)
    (agrees () state _ (factor_endsBefore more permitted ends)) fun tree numbering read => ?_
  refine Category.bind_reached (.term grammar) fun chain _ => ?_
  dsimp only
  rw [isLiteral_of_evaluate read]
  exact Category.read_bind (.term grammar)
    (others chain (state.withNumbering numbering) rest ends) fun _ _ _ => rfl

theorem lastFactor :
    (Derivation.lastFactor : Derivation (.productRest grammar afterLiteral)).Agrees setting := by
  intro chain state rest ends
  have none : MulOp.ofKind? (state.withAhead rest).kind = none := ends.2.2
  have signed : ¬ (afterLiteral = true ∧
      multipliesSilently setting.vocabulary grammar (state.withAhead rest)) := by
    rintro ⟨_, silently⟩
    simp only [multipliesSilently, Bool.and_eq_true, decide_eq_true_eq] at silently
    exact ends.2.1 silently.1.2
  change (Parser.productRest setting grammar afterLiteral chain (state.withAhead rest)).outcome = _
  rw [productRest_outcome, none]
  exact if_neg signed

theorem product {op : MulOp} {sign : Terminal op.kind}
    {next : Derivation (.factor grammar isNumber)}
    {more : Derivation (.productRest grammar isNumber)} (permitted : more.Permitted setting.vocabulary)
    (agrees : next.Agrees setting) (others : more.Agrees setting) :
    (Derivation.product op sign next more :
      Derivation (.productRest grammar afterLiteral)).Agrees setting := by
  intro chain state rest ends
  have some : MulOp.ofKind? sign.val.kind = some op :=
    MulOp.ofKind?_eq_some_iff.mpr sign.property
  change (Parser.productRest setting grammar afterLiteral chain _).outcome = _
  rw [tokens, List.cons_append, List.append_assoc, productRest_outcome, State.kind_withAhead, some,
    State.advance_terminal sign op.kind_ne_eof, evaluate]
  refine Category.read_bind (.productRest grammar afterLiteral)
    (agrees () state _ (factor_endsBefore more permitted ends)) fun tree numbering read => ?_
  refine Category.bind_reached (.productRest grammar afterLiteral) fun chain _ => ?_
  dsimp only
  rw [isLiteral_of_evaluate read]
  exact Category.read_bind (.productRest grammar afterLiteral)
    (others chain (state.withNumbering numbering) rest ends) fun _ _ _ => rfl

theorem silent {next : Derivation (.factor .quantity false)}
    {more : Derivation (.productRest .quantity false)}
    (isName : next.leading.kind = .identifier)
    (known : setting.vocabulary.knowsDimension next.leading.text)
    (permitted : more.Permitted setting.vocabulary) (agrees : next.Agrees setting)
    (others : more.Agrees setting) : (Derivation.silent next more).Agrees setting := by
  intro chain state rest ends
  have current : (state.withAhead (next.tokens ++ (more.tokens ++ rest))).current =
      next.leading := next.current_withAhead rfl
  have kind : (state.withAhead (next.tokens ++ (more.tokens ++ rest))).kind = .identifier := by
    rw [next.kind_withAhead rfl, isName]
  have silently : true = true ∧ multipliesSilently setting.vocabulary .quantity
      (state.withAhead (next.tokens ++ (more.tokens ++ rest))) := by
    simp [multipliesSilently, kind, current, known]
  change (Parser.productRest setting .quantity true chain _).outcome = _
  rw [tokens, List.append_assoc, productRest_outcome, kind, evaluate, location, ← current]
  refine (if_pos silently).trans ?_
  refine Category.read_bind (.productRest .quantity true)
    (agrees () state _ (factor_endsBefore more permitted ends)) fun tree numbering _ => ?_
  refine Category.bind_reached (.productRest .quantity true) fun chain _ => ?_
  exact Category.read_bind (.productRest .quantity true)
    (others chain (state.withNumbering numbering) rest ends) fun _ _ _ => rfl

theorem factor {base : Derivation (.atom grammar isNumber)} (agrees : base.Agrees setting) :
    (Derivation.factor base).Agrees setting := by
  intro _ state rest ends
  have place : (state.withAhead (base.tokens ++ rest)).location = base.location :=
    base.location_withAhead rfl
  change (Parser.factor setting grammar _).outcome = _
  rw [tokens, factor_outcome, evaluate, ← place]
  refine Category.read_bind (.factor grammar isNumber) (agrees () state rest trivial)
    fun tree numbering _ => ?_
  exact if_neg ends

theorem raised {base : Derivation (.atom grammar isNumber)} {sign : Terminal .power}
    {exponent : Derivation .exponent} (agrees : base.Agrees setting)
    (others : exponent.Agrees setting) :
    (Derivation.raised base sign exponent).Agrees setting := by
  intro _ state rest ends
  have place : (state.withAhead (base.tokens ++ (sign.val :: (exponent.tokens ++ rest)))).location =
      base.location := base.location_withAhead rfl
  change (Parser.factor setting grammar _).outcome = _
  rw [tokens, List.append_assoc, List.cons_append, factor_outcome, evaluate, ← place]
  refine Category.read_bind (.factor grammar false) (agrees () state _ trivial)
    fun tree numbering _ => ?_
  dsimp only
  rw [State.kind_withAhead, if_pos sign.property, State.advance_terminal sign nofun]
  refine Category.read_bind (.factor grammar false)
    (others () (state.withNumbering numbering) rest trivial) fun power _ _ => ?_
  exact Category.bind_reached (.factor grammar false) fun _ _ => rfl

theorem name {token : Terminal .identifier} :
    (Derivation.name token : Derivation (.atom grammar false)).Agrees setting := by
  intro _ state rest _
  change (Parser.atom setting grammar (state.withAhead (token.val :: rest))).outcome = _
  rw [atom_outcome, State.kind_withAhead, Grammar.opening?_name_iff.mpr token.property]
  dsimp only
  rw [name_outcome, State.current_withAhead, State.numbering_withAhead,
    State.advance_terminal token nofun]
  rfl

theorem literal {token : Terminal .number} :
    (Derivation.literal token : Derivation (.atom grammar true)).Agrees setting := by
  intro _ state rest _
  change (Parser.atom setting grammar (state.withAhead (token.val :: rest))).outcome = _
  rw [atom_outcome, State.kind_withAhead, Grammar.opening?_literal_iff.mpr token.property]
  dsimp only
  rw [literal_outcome, State.current_withAhead, State.advance_terminal token nofun, evaluate]
  cases literalNode token.val <;> rfl

/-- An expression in parentheses is read as the expression. -/
theorem enclosed {inner : Derivation (.expression grammar)} {closing : Terminal .closeParen}
    (agrees : inner.Agrees setting) (state : State) (rest : List Token) :
    (do
      let (inner, later) ← (Parser.expression setting grammar
        (state.withAhead (inner.tokens ++ closing.val :: rest))).outcome
      let (_, last) ← (later.expect .closeParen).outcome
      .ok (inner, last)) =
    (Category.expression grammar).reached state rest
      (inner.evaluate setting () state.depth state.numbering) := by
  have read := agrees () state (closing.val :: rest) (expression_endsBefore closing (.inr rfl))
  change (Parser.expression setting grammar _).outcome = _ at read
  rw [read]
  cases inner.evaluate setting () state.depth state.numbering with
  | error error => rfl
  | ok evaluated =>
    change ((((state.withNumbering evaluated.2).withAhead (closing.val :: rest)).expect
      .closeParen).outcome >>= _) = _
    rw [State.expect_terminal closing nofun]
    rfl

theorem parenthesized {opening : Terminal .openParen} {inner : Derivation (.expression grammar)}
    {closing : Terminal .closeParen} (agrees : inner.Agrees setting) :
    (Derivation.parenthesized opening inner closing).Agrees setting := by
  intro _ state rest _
  change (Parser.atom setting grammar _).outcome = _
  rw [tokens, List.cons_append, List.append_assoc, atom_outcome, State.kind_withAhead,
    Grammar.opening?_parenthesis_iff.mpr opening.property]
  dsimp only
  rw [State.advance_terminal opening nofun]
  exact enclosed agrees state rest

theorem grouped {opening : Terminal .openParen} {inner : Derivation (.expression .numeric)}
    {closing : Terminal .closeParen} (agrees : inner.Agrees setting) :
    (Derivation.grouped opening inner closing).Agrees setting := by
  intro _ state rest _
  change (Parser.exponent setting _).outcome = _
  rw [tokens, List.cons_append, List.append_assoc, exponent_outcome, State.kind_withAhead,
    if_pos opening.property, State.advance_terminal opening nofun]
  exact enclosed agrees state rest

theorem integer {number : Terminal .number} : (Derivation.integer number).Agrees setting := by
  intro _ state rest _
  have kind : (state.withAhead (number.val :: rest)).kind = .number := number.property
  change (Parser.exponent setting (state.withAhead (number.val :: rest))).outcome = _
  rw [exponent_outcome, if_neg (by simp [kind]), integer_outcome, if_neg (by simp [kind]),
    magnitude_outcome, if_pos kind, State.current_withAhead, State.advance_terminal number nofun,
    evaluate]
  cases literalNode number.val <;> rfl

theorem negativeInteger {minus : Terminal .minus} {number : Terminal .number} :
    (Derivation.negativeInteger minus number).Agrees setting := by
  intro _ state rest _
  have sign : (state.withAhead (minus.val :: number.val :: rest)).kind = .minus := minus.property
  have kind : (state.withAhead (number.val :: rest)).kind = .number := number.property
  change (Parser.exponent setting (state.withAhead (minus.val :: number.val :: rest))).outcome = _
  rw [exponent_outcome, if_neg (by simp [sign]), integer_outcome, if_pos sign,
    State.advance_terminal minus nofun, magnitude_outcome, if_pos kind, State.current_withAhead,
    State.advance_terminal number nofun, evaluate]
  cases literalNode number.val <;> rfl

theorem vector {op : VectorOp} {keyword : Terminal op.kind} {opening : Terminal .openParen}
    {left right : Derivation (.expression .quantity)} {comma : Terminal .comma}
    {closing : Terminal .closeParen} (agrees : left.Agrees setting)
    (others : right.Agrees setting) :
    (Derivation.vector op keyword opening left comma right closing).Agrees setting := by
  intro _ state rest _
  change (Parser.atom setting .quantity _).outcome = _
  rw [tokens, List.cons_append, List.cons_append, List.append_assoc, List.cons_append,
    List.append_assoc, atom_outcome, State.kind_withAhead,
    Grammar.opening?_vector_iff.mpr ⟨rfl, keyword.property⟩]
  dsimp only
  rw [State.advance_terminal keyword op.kind_ne_eof, State.expect_terminal opening nofun,
    Except.ok_bind, evaluate]
  refine Category.read_bind (.atom .quantity false)
    (agrees () state _ (expression_endsBefore comma (.inl rfl))) fun first numbering _ => ?_
  dsimp only
  rw [State.expect_terminal comma nofun, Except.ok_bind]
  refine Category.read_bind (.atom .quantity false) (others () (state.withNumbering numbering) _
    (expression_endsBefore closing (.inr rfl))) fun second numbering _ => ?_
  dsimp only
  rw [List.singleton_append, State.expect_terminal closing nofun, Except.ok_bind]
  exact Category.bind_reached (.atom .quantity false) fun _ _ => rfl

end Derivation.Agrees

/-- The parser comes to what a derivation that leaves out signs only where it may is evaluated
to. -/
theorem Derivation.agrees (derivation : Derivation category)
    (permitted : derivation.Permitted setting.vocabulary) : derivation.Agrees setting := by
  induction derivation with
  | expression first rest ihFirst ihRest =>
    exact .expression (ihFirst permitted.1) (ihRest permitted.2)
  | lastTerm => exact .lastTerm
  | sum op sign next rest ihNext ihRest => exact .sum (ihNext permitted.1) (ihRest permitted.2)
  | term first rest ihFirst ihRest =>
    exact .term permitted.2 (ihFirst permitted.1) (ihRest permitted.2)
  | negated minus first rest ihFirst ihRest =>
    exact .negated permitted.2 (ihFirst permitted.1) (ihRest permitted.2)
  | lastFactor => exact .lastFactor
  | product op sign next rest ihNext ihRest =>
    exact .product permitted.2 (ihNext permitted.1) (ihRest permitted.2)
  | silent next rest ihNext ihRest =>
    obtain ⟨⟨isName, known⟩, nextPermitted, restPermitted⟩ := permitted
    exact .silent isName known restPermitted (ihNext nextPermitted) (ihRest restPermitted)
  | factor base ih => exact .factor (ih permitted)
  | raised base sign exponent ihBase ihExponent =>
    exact .raised (ihBase permitted.1) (ihExponent permitted.2)
  | name token => exact .name
  | literal token => exact .literal
  | parenthesized opening inner closing ih => exact .parenthesized (ih permitted)
  | vector op keyword opening left comma right closing ihLeft ihRight =>
    exact .vector (ihLeft permitted.1) (ihRight permitted.2)
  | integer number => exact .integer
  | negativeInteger minus number => exact .negativeInteger
  | grouped opening inner closing ih => exact .grouped (ih permitted)

end Dimensional
