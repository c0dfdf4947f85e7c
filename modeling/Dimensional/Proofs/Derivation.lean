import Dimensional.Grammar
import Dimensional.Scope
import Dimensional.Tree.Node

/-! Derivations in the grammars of expressions: which tokens they are made of, which trees they
stand for and where a sign of multiplication may be left out. -/

namespace Dimensional

def AddOp.kind : AddOp → Token.Kind
  | .plus => .plus
  | .minus => .minus

def MulOp.kind : MulOp → Token.Kind
  | .times => .times
  | .over => .over

def VectorOp.kind : VectorOp → Token.Kind
  | .dot => .dot
  | .cross => .cross

theorem AddOp.ofKind?_eq_some_iff {kind : Token.Kind} {op : AddOp} :
    AddOp.ofKind? kind = some op ↔ kind = op.kind := by
  cases kind <;> cases op <;> simp [AddOp.ofKind?, AddOp.kind]

theorem MulOp.ofKind?_eq_some_iff {kind : Token.Kind} {op : MulOp} :
    MulOp.ofKind? kind = some op ↔ kind = op.kind := by
  cases kind <;> cases op <;> simp [MulOp.ofKind?, MulOp.kind]

theorem AddOp.kind_ne_eof (op : AddOp) : op.kind ≠ .eof := by
  cases op <;> simp [AddOp.kind]

theorem MulOp.kind_ne_eof (op : MulOp) : op.kind ≠ .eof := by
  cases op <;> simp [MulOp.kind]

theorem VectorOp.kind_ne_eof (op : VectorOp) : op.kind ≠ .eof := by
  cases op <;> simp [VectorOp.kind]

/-- Whether an expression cannot go on beyond a token of a kind. -/
def Token.Kind.delimits (kind : Token.Kind) : Bool := kind = .semicolon || kind = .eof

theorem Token.Kind.ne_eof_of_not_delimits {kind : Token.Kind} (goesOn : kind.delimits = false) :
    kind ≠ .eof := by
  rintro rfl
  cases goesOn

theorem AddOp.kind_not_delimits (op : AddOp) : op.kind.delimits = false := by
  cases op <;> rfl

theorem MulOp.kind_not_delimits (op : MulOp) : op.kind.delimits = false := by
  cases op <;> rfl

theorem VectorOp.kind_not_delimits (op : VectorOp) : op.kind.delimits = false := by
  cases op <;> rfl

section Opening

variable {grammar : Grammar} {kind : Token.Kind}

theorem Grammar.opening?_name_iff : grammar.opening? kind = some .name ↔ kind = .identifier := by
  cases grammar <;> cases kind <;> simp [Grammar.opening?]

theorem Grammar.opening?_literal_iff : grammar.opening? kind = some .literal ↔ kind = .number := by
  cases grammar <;> cases kind <;> simp [Grammar.opening?]

theorem Grammar.opening?_parenthesis_iff :
    grammar.opening? kind = some .parenthesis ↔ kind = .openParen := by
  cases grammar <;> cases kind <;> simp [Grammar.opening?]

theorem Grammar.opening?_vector_iff {op : VectorOp} :
    grammar.opening? kind = some (.vector op) ↔ grammar = .quantity ∧ kind = op.kind := by
  cases grammar <;> cases kind <;> cases op <;> simp [Grammar.opening?, VectorOp.kind]

end Opening

/-- A token of a given kind. -/
abbrev Terminal (kind : Token.Kind) : Type := { token : Token // token.kind = kind }

theorem Terminal.not_delimits {kind : Token.Kind} (token : Terminal kind)
    (goesOn : kind.delimits = false) : token.val.kind.delimits = false := by
  rwa [token.property]

/-- What can be derived. A factor is told apart when it is a number and nothing else, and so is
what may follow such a factor in a term. -/
inductive Category where
  | expression (grammar : Grammar)
  | sumRest (grammar : Grammar)
  | term (grammar : Grammar)
  | productRest (grammar : Grammar) (afterLiteral : Bool)
  | factor (grammar : Grammar) (literal : Bool)
  | atom (grammar : Grammar) (literal : Bool)
  | exponent
deriving DecidableEq, Repr

/-- Whether nothing may be derived. -/
def Category.isRest : Category → Bool
  | .sumRest _ | .productRest _ _ => true
  | _ => false

/-- A derivation holds the tokens that the productions name. -/
inductive Derivation : Category → Type where
  /-- `expression := term (('+' | '-') term)*` -/
  | expression (first : Derivation (.term grammar)) (rest : Derivation (.sumRest grammar)) :
      Derivation (.expression grammar)
  | lastTerm : Derivation (.sumRest grammar)
  | sum (op : AddOp) (sign : Terminal op.kind) (next : Derivation (.term grammar))
      (rest : Derivation (.sumRest grammar)) : Derivation (.sumRest grammar)
  /-- `term := ['-'] factor (('*' | '/') factor)*` -/
  | term (first : Derivation (.factor grammar literal))
      (rest : Derivation (.productRest grammar literal)) : Derivation (.term grammar)
  | negated (minus : Terminal .minus) (first : Derivation (.factor grammar literal))
      (rest : Derivation (.productRest grammar literal)) : Derivation (.term grammar)
  | lastFactor : Derivation (.productRest grammar afterLiteral)
  | product (op : MulOp) (sign : Terminal op.kind) (next : Derivation (.factor grammar literal))
      (rest : Derivation (.productRest grammar literal)) :
      Derivation (.productRest grammar afterLiteral)
  /-- A number is multiplied by the quantity after it without a sign. -/
  | silent (next : Derivation (.factor .quantity false))
      (rest : Derivation (.productRest .quantity false)) : Derivation (.productRest .quantity true)
  /-- `factor := atom ['**' exponent]` -/
  | factor (base : Derivation (.atom grammar literal)) : Derivation (.factor grammar literal)
  | raised (base : Derivation (.atom grammar literal)) (sign : Terminal .power)
      (exponent : Derivation .exponent) : Derivation (.factor grammar false)
  /-- `atom := identifier | number | '(' expression ')' | vector`; vectors are quantities only -/
  | name (token : Terminal .identifier) : Derivation (.atom grammar false)
  | literal (token : Terminal .number) : Derivation (.atom grammar true)
  | parenthesized (opening : Terminal .openParen) (inner : Derivation (.expression grammar))
      (closing : Terminal .closeParen) : Derivation (.atom grammar false)
  /-- `vector := ('dot' | 'cross') '(' expression ',' expression ')'` -/
  | vector (op : VectorOp) (keyword : Terminal op.kind) (opening : Terminal .openParen)
      (left : Derivation (.expression .quantity)) (comma : Terminal .comma)
      (right : Derivation (.expression .quantity)) (closing : Terminal .closeParen) :
      Derivation (.atom .quantity false)
  /-- `exponent := ['-'] number | '(' expression ')'`, where the expression is numeric -/
  | integer (number : Terminal .number) : Derivation .exponent
  | negativeInteger (minus : Terminal .minus) (number : Terminal .number) : Derivation .exponent
  | grouped (opening : Terminal .openParen) (inner : Derivation (.expression .numeric))
      (closing : Terminal .closeParen) : Derivation .exponent

/-- What a node says about the source. -/
structure Mark where
  shape : Shape
  location : Location
  identifier? : Option String := none
deriving DecidableEq, Repr

def Node.mark (node : Node) : Mark := ⟨node.shape, node.location, node.identifier?⟩

namespace Derivation

/-- The tokens that are derived, in order. -/
@[simp] def tokens : Derivation category → List Token
  | expression first rest => first.tokens ++ rest.tokens
  | lastTerm => []
  | sum _ sign next rest => sign.val :: (next.tokens ++ rest.tokens)
  | term first rest => first.tokens ++ rest.tokens
  | negated minus first rest => minus.val :: (first.tokens ++ rest.tokens)
  | lastFactor => []
  | product _ sign next rest => sign.val :: (next.tokens ++ rest.tokens)
  | silent next rest => next.tokens ++ rest.tokens
  | factor base => base.tokens
  | raised base sign exponent => base.tokens ++ sign.val :: exponent.tokens
  | name token => [token.val]
  | literal token => [token.val]
  | parenthesized opening inner closing => opening.val :: (inner.tokens ++ [closing.val])
  | vector _ keyword opening left comma right closing =>
    keyword.val :: opening.val ::
      (left.tokens ++ comma.val :: (right.tokens ++ [closing.val]))
  | integer number => [number.val]
  | negativeInteger minus number => [minus.val, number.val]
  | grouped opening inner closing => opening.val :: (inner.tokens ++ [closing.val])

/-- The first token. -/
def leading (derivation : Derivation category) : Token :=
  derivation.tokens.headD (.eof .start)

def location (derivation : Derivation category) : Location := derivation.leading.location

/-- The trees of what is derived. Signs are leaves between their operands; parentheses leave no
trace. -/
def trees : Derivation category → List (Tree Mark)
  | @expression grammar first rest =>
    [.node ⟨.expression grammar, first.location, none⟩ (first.trees ++ rest.trees)]
  | lastTerm => []
  | sum op sign next rest =>
    .leaf ⟨.sum op, sign.val.location, none⟩ :: (next.trees ++ rest.trees)
  | term first rest => [.node ⟨.term, first.location, none⟩ (first.trees ++ rest.trees)]
  | negated minus first rest =>
    [.node ⟨.term, minus.val.location, none⟩
      (.leaf ⟨.negation, minus.val.location, none⟩ :: (first.trees ++ rest.trees))]
  | lastFactor => []
  | product op sign next rest =>
    .leaf ⟨.product op, sign.val.location, none⟩ :: (next.trees ++ rest.trees)
  | silent next rest => .leaf ⟨.product .times, next.location, none⟩ :: (next.trees ++ rest.trees)
  | factor base => [.node ⟨.factor, base.location, none⟩ base.trees]
  | raised base sign exponent =>
    [.node ⟨.factor, base.location, none⟩
      (base.trees ++ .leaf ⟨.power, sign.val.location, none⟩ :: exponent.trees)]
  | name token => [.leaf ⟨.identifier, token.val.location, some token.val.text⟩]
  | literal token => [.leaf ⟨.number, token.val.location, none⟩]
  | parenthesized _ inner _ => inner.trees
  | vector op keyword _ left _ right _ =>
    [.node ⟨.vector op, keyword.val.location, none⟩ (left.trees ++ right.trees)]
  | integer number =>
    [.node ⟨.integer, number.val.location, none⟩ [.leaf ⟨.number, number.val.location, none⟩]]
  | negativeInteger minus number =>
    [.node ⟨.integer, minus.val.location, none⟩
      [.leaf ⟨.negation, minus.val.location, none⟩, .leaf ⟨.number, number.val.location, none⟩]]
  | grouped _ inner _ => inner.trees

/-- A sign of multiplication is left out only before a name that the vocabulary knows as a
dimension. -/
def Permitted (vocabulary : Vocabulary) : Derivation category → Prop
  | expression first rest => first.Permitted vocabulary ∧ rest.Permitted vocabulary
  | lastTerm => True
  | sum _ _ next rest => next.Permitted vocabulary ∧ rest.Permitted vocabulary
  | term first rest => first.Permitted vocabulary ∧ rest.Permitted vocabulary
  | negated _ first rest => first.Permitted vocabulary ∧ rest.Permitted vocabulary
  | lastFactor => True
  | product _ _ next rest => next.Permitted vocabulary ∧ rest.Permitted vocabulary
  | silent next rest =>
    (next.leading.kind = .identifier ∧ vocabulary.knowsDimension next.leading.text) ∧
      next.Permitted vocabulary ∧ rest.Permitted vocabulary
  | factor base => base.Permitted vocabulary
  | raised base _ exponent => base.Permitted vocabulary ∧ exponent.Permitted vocabulary
  | name _ => True
  | literal _ => True
  | parenthesized _ inner _ => inner.Permitted vocabulary
  | vector _ _ _ left _ right _ => left.Permitted vocabulary ∧ right.Permitted vocabulary
  | integer _ => True
  | negativeInteger _ _ => True
  | grouped _ inner _ => inner.Permitted vocabulary

instance decidablePermitted (vocabulary : Vocabulary) :
    (derivation : Derivation category) → Decidable (derivation.Permitted vocabulary)
  | expression first rest | term first rest | negated _ first rest =>
    @instDecidableAnd _ _ (first.decidablePermitted vocabulary) (rest.decidablePermitted vocabulary)
  | sum _ _ next rest | product _ _ next rest =>
    @instDecidableAnd _ _ (next.decidablePermitted vocabulary) (rest.decidablePermitted vocabulary)
  | silent next rest =>
    @instDecidableAnd _ _ inferInstance
      (@instDecidableAnd _ _ (next.decidablePermitted vocabulary)
        (rest.decidablePermitted vocabulary))
  | raised base _ exponent =>
    @instDecidableAnd _ _ (base.decidablePermitted vocabulary)
      (exponent.decidablePermitted vocabulary)
  | vector _ _ _ left _ right _ =>
    @instDecidableAnd _ _ (left.decidablePermitted vocabulary)
      (right.decidablePermitted vocabulary)
  | factor base => base.decidablePermitted vocabulary
  | parenthesized _ inner _ => inner.decidablePermitted vocabulary
  | grouped _ inner _ => inner.decidablePermitted vocabulary
  | lastTerm | lastFactor | name _ | literal _ | integer _ | negativeInteger _ _ => .isTrue trivial

/-- How many expressions are inside one another at most. -/
@[simp] def nesting : Derivation category → Nat
  | expression first rest => max first.nesting rest.nesting + 1
  | sum _ _ next rest => max next.nesting rest.nesting
  | term first rest => max first.nesting rest.nesting
  | negated _ first rest => max first.nesting rest.nesting
  | product _ _ next rest => max next.nesting rest.nesting
  | silent next rest => max next.nesting rest.nesting
  | factor base => base.nesting
  | raised base _ exponent => max base.nesting exponent.nesting
  | parenthesized _ inner _ => inner.nesting
  | vector _ _ _ left _ right _ => max left.nesting right.nesting
  | grouped _ inner _ => inner.nesting
  | lastTerm | lastFactor | name _ | literal _ | integer _ | negativeInteger _ _ => 0

/-- Only what may be left out has no tokens. -/
theorem tokens_ne_nil (derivation : Derivation category) (h : category.isRest = false) :
    derivation.tokens ≠ [] := by
  induction derivation with
  | expression first rest ih _ => simp [ih rfl]
  | term first rest ih _ => simp [ih rfl]
  | factor base ih => exact ih rfl
  | lastTerm | sum | lastFactor | product | silent => cases h
  | negated | raised | name | literal | parenthesized | vector | integer | negativeInteger
  | grouped => simp

theorem tokens_eq_leading_cons (derivation : Derivation category) (h : category.isRest = false) :
    derivation.tokens = derivation.leading :: derivation.tokens.tail := by
  have some := derivation.tokens_ne_nil h
  unfold leading
  cases same : derivation.tokens with
  | nil => exact absurd same some
  | cons first rest => rfl

theorem leading_eq_of_tokens (derivation : Derivation category) (first : Derivation other)
    {rest : List Token} (same : derivation.tokens = first.tokens ++ rest)
    (h : other.isRest = false) : derivation.leading = first.leading := by
  unfold leading
  rw [same, first.tokens_eq_leading_cons h]
  rfl

/-- Nothing is derived that an expression cannot go on beyond. -/
theorem not_delimits (derivation : Derivation category) :
    ∀ token ∈ derivation.tokens, token.kind.delimits = false := by
  induction derivation with
  | sum op sign next rest ihNext ihRest =>
    simp_all [Terminal.not_delimits sign op.kind_not_delimits, or_imp]
  | product op sign next rest ihNext ihRest =>
    simp_all [Terminal.not_delimits sign op.kind_not_delimits, or_imp]
  | vector op keyword opening left comma right closing ihLeft ihRight =>
    simp_all [Terminal.not_delimits keyword op.kind_not_delimits, Terminal.not_delimits opening rfl,
      Terminal.not_delimits comma rfl, Terminal.not_delimits closing rfl, or_imp]
  | name token | literal token | integer token => simp [Terminal.not_delimits token rfl]
  | negativeInteger minus number =>
    simp [Terminal.not_delimits minus rfl, Terminal.not_delimits number rfl]
  | raised base sign exponent ihBase ihExponent =>
    simp_all [Terminal.not_delimits sign rfl, or_imp]
  | negated minus first rest ihFirst ihRest =>
    simp_all [Terminal.not_delimits minus rfl, or_imp]
  | parenthesized opening inner closing ih | grouped opening inner closing ih =>
    simp_all [Terminal.not_delimits opening rfl, Terminal.not_delimits closing rfl, or_imp]
  | lastTerm | lastFactor => simp
  | expression | term | silent | factor => simp_all [or_imp]

/-- No mark of the end is derived. -/
theorem kind_ne_eof (derivation : Derivation category) :
    ∀ token ∈ derivation.tokens, token.kind ≠ .eof :=
  fun token member => Token.Kind.ne_eof_of_not_delimits (derivation.not_delimits token member)

/-- A factor that is a number and nothing else starts with that number. -/
theorem leading_kind_of_literal (derivation : Derivation (.factor grammar true)) :
    derivation.leading.kind = .number := by
  cases derivation with
  | factor base =>
    cases base with
    | literal token => exact token.property

/-- An atom starts with a token that opens one in its grammar. -/
theorem exists_opening_atom (base : Derivation (.atom grammar isNumber)) :
    ∃ opening, grammar.opening? base.leading.kind = some opening := by
  cases base with
  | name token => exact ⟨_, Grammar.opening?_name_iff.mpr token.property⟩
  | literal token => exact ⟨_, Grammar.opening?_literal_iff.mpr token.property⟩
  | parenthesized opening inner closing =>
    exact ⟨_, Grammar.opening?_parenthesis_iff.mpr opening.property⟩
  | vector op keyword => exact ⟨_, Grammar.opening?_vector_iff.mpr ⟨rfl, keyword.property⟩⟩

theorem exists_opening (first : Derivation (.factor grammar isNumber)) :
    ∃ opening, grammar.opening? first.leading.kind = some opening := by
  cases first with
  | factor base => exact base.exists_opening_atom
  | raised base sign exponent =>
    rw [(raised base sign exponent).leading_eq_of_tokens base rfl rfl]
    exact base.exists_opening_atom

/-- A factor starts without a sign. -/
theorem leading_kind_ne_minus (first : Derivation (.factor grammar isNumber)) :
    first.leading.kind ≠ .minus := by
  intro minus
  obtain ⟨opening, opens⟩ := first.exists_opening
  rw [minus] at opens
  cases grammar <;> cases opens

theorem opens_leading (first : Derivation (.term grammar)) :
    grammar.opens first.leading.kind = true := by
  cases first with
  | term first rest =>
    obtain ⟨opening, opens⟩ := first.exists_opening
    rw [(term first rest).leading_eq_of_tokens first rfl rfl]
    simp [Grammar.opens, opens]
  | negated minus first rest =>
    have starts : (negated minus first rest).leading = minus.val := rfl
    simp [Grammar.opens, starts, minus.property]

end Derivation

end Dimensional
