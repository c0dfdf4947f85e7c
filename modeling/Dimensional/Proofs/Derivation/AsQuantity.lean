import Dimensional.Proofs.Parser.Numeric
import Dimensional.Proofs.Parser.Parameters
import Dimensional.Proofs.Quantity.Worth

/-! Numeric parts are parts of quantities as well, and are evaluated to the same numbers there. -/

namespace Dimensional

open Dimensional.Parser

/-- The same category among quantities. Exponents stay numeric. -/
def Category.asQuantity : Category → Category
  | .expression _ => .expression .quantity
  | .sumRest _ => .sumRest .quantity
  | .term _ => .term .quantity
  | .productRest _ afterLiteral => .productRest .quantity afterLiteral
  | .factor _ isNumber => .factor .quantity isNumber
  | .atom _ isNumber => .atom .quantity isNumber
  | .exponent => .exponent

namespace Derivation

/-- The same derivation among quantities. -/
def asQuantity : Derivation category → Derivation category.asQuantity
  | expression first rest => expression first.asQuantity rest.asQuantity
  | lastTerm => lastTerm
  | sum op sign next rest => sum op sign next.asQuantity rest.asQuantity
  | term first rest => term first.asQuantity rest.asQuantity
  | negated minus first rest => negated minus first.asQuantity rest.asQuantity
  | lastFactor => lastFactor
  | product op sign next rest => product op sign next.asQuantity rest.asQuantity
  | silent next rest => silent next.asQuantity rest.asQuantity
  | factor base => factor base.asQuantity
  | raised base sign exponent => raised base.asQuantity sign exponent
  | name token => name token
  | literal token => literal token
  | parenthesized opening inner closing => parenthesized opening inner.asQuantity closing
  | vector op keyword opening left comma right closing =>
    vector op keyword opening left.asQuantity comma right.asQuantity closing
  | integer number => integer number
  | negativeInteger minus number => negativeInteger minus number
  | grouped opening inner closing => grouped opening inner closing

theorem tokens_asQuantity (derivation : Derivation category) :
    derivation.asQuantity.tokens = derivation.tokens := by
  induction derivation with
  | lastTerm | lastFactor | name | literal | integer | negativeInteger | grouped => rfl
  | expression _ _ ihFirst ihRest | term _ _ ihFirst ihRest | silent _ _ ihFirst ihRest =>
    exact congrArg₂ (· ++ ·) ihFirst ihRest
  | sum _ sign _ _ ihNext ihRest | product _ sign _ _ ihNext ihRest
  | negated sign _ _ ihNext ihRest =>
    exact congrArg (sign.val :: ·) (congrArg₂ (· ++ ·) ihNext ihRest)
  | factor _ ih => exact ih
  | raised _ sign exponent ihBase _ => exact congrArg (· ++ sign.val :: exponent.tokens) ihBase
  | parenthesized opening _ closing ih =>
    exact congrArg (opening.val :: · ++ [closing.val]) ih
  | vector _ keyword opening _ comma _ closing ihLeft ihRight =>
    exact congrArg₂
      (fun left right => keyword.val :: opening.val ::
        (left ++ comma.val :: (right ++ [closing.val]))) ihLeft ihRight

/-- No sign of multiplication is left out between numbers. -/
theorem permitted_asQuantity (derivation : Derivation category)
    (numeric : category.grammar = .numeric) : derivation.asQuantity.Permitted vocabulary := by
  induction derivation with
  | expression _ _ ihFirst ihRest | term _ _ ihFirst ihRest | negated _ _ _ ihFirst ihRest =>
    exact ⟨ihFirst numeric, ihRest numeric⟩
  | sum _ _ _ _ ihNext ihRest | product _ _ _ _ ihNext ihRest =>
    exact ⟨ihNext numeric, ihRest numeric⟩
  | silent => cases numeric
  | factor _ ih | parenthesized _ _ _ ih => exact ih numeric
  | raised _ _ exponent ihBase _ => exact ⟨ihBase numeric, exponent.permitted_of_numeric rfl⟩
  | vector => cases numeric
  | grouped _ inner _ _ => exact inner.permitted_of_numeric rfl
  | lastTerm | lastFactor | name | literal | integer | negativeInteger => trivial

end Derivation

/-- A quantity that is nothing but a number, with or without a name. -/
def Quantity.IsNumber (quantity : Quantity) (value : Float) : Prop :=
  ∃ identifier?, quantity = { Quantity.constant value with identifier? }

/-- A chain of nothing but numbers. -/
def Term.ofNumber (value : Float) : Term := ⟨.unknown, value, true, true, 0⟩

namespace Quantity.IsNumber

variable {quantity left right : Quantity} {value first second : Float}

theorem constant (value : Float) : (Quantity.constant value).IsNumber value := ⟨none, rfl⟩

theorem of_fields (above : quantity.numerator = .one) (below : quantity.denominator = .one)
    (scalar : quantity.isVector = false) (constant : quantity.isConstant = true)
    (known : quantity.hasValue = true) : quantity.IsNumber quantity.value := by
  obtain ⟨identifier?, _, _, _, _, _, _⟩ := quantity
  cases above
  cases below
  cases scalar
  cases constant
  cases known
  exact ⟨identifier?, rfl⟩

theorem add {op : AddOp} (ofLeft : left.IsNumber first) (ofRight : right.IsNumber second) :
    left.add op right = .ok (.constant (op.apply first second)) := by
  obtain ⟨_, rfl⟩ := ofLeft
  obtain ⟨_, rfl⟩ := ofRight
  rfl

theorem ofFactor {negated : Bool} (isNumber : quantity.IsNumber value) :
    Term.ofFactor negated quantity = .ok (.ofNumber ((if negated then -1.0 else 1.0) * value)) := by
  obtain ⟨_, rfl⟩ := isNumber
  rfl

theorem apply {op : MulOp} (isNumber : quantity.IsNumber second) :
    (Term.ofNumber first).apply op quantity = (.ok (), .ofNumber (op.apply first second)) := by
  obtain ⟨_, rfl⟩ := isNumber
  cases op <;> rfl

theorem chain_apply {op : MulOp} (isNumber : quantity.IsNumber second) :
    (Chain.quantity (.ofNumber first)).apply op (.quantity quantity) =
      .ok (.quantity (.ofNumber (op.apply first second))) := by
  rw [Chain.apply_quantity]
  exact congrArg (fun applied => (Term.settled applied).map Chain.quantity) isNumber.apply

theorem finish : (Term.ofNumber value).finish = .constant value := rfl

/-- Numbers other than zero are raised as in numeric expressions. -/
theorem power {base exponent : Float} (isNumber : quantity.IsNumber base)
    (nonzero : (base == 0.0) = false) :
    ∃ raised, quantity.power exponent = .ok raised ∧
      raised.IsNumber (Number.power base exponent) := by
  obtain ⟨identifier?, rfl⟩ := isNumber
  cases zero : exponent == 0.0 with
  | true =>
    refine ⟨_, ?_, ⟨identifier?, rfl⟩⟩
    rw [Number.power_zero zero]
    simp [Quantity.power, Quantity.constant, zero, nonzero, bare, unknown]
  | false =>
    refine ⟨_, ?_, ⟨identifier?, rfl⟩⟩
    simp [Quantity.power, Quantity.constant, zero, nonzero, bare, unknown, isDimensioned,
      Monomial.one]

end Quantity.IsNumber

/-- Where a numeric part comes to a number, the same part among quantities is worth that number. -/
def Worth.Mirrors (worth other : Worth) : Prop :=
  ∃ value quantity, worth = .number value ∧ other = .quantity quantity ∧ quantity.IsNumber value

def Chain.Mirrors (chain other : Chain) : Prop :=
  ∃ value, chain = .number value ∧ other = .quantity (.ofNumber value)

section Mirrors

variable {worth other left right otherLeft otherRight sum raised : Worth}
  {chain otherChain extended : Chain}

theorem Worth.Mirrors.add {op : AddOp} (ofLeft : left.Mirrors otherLeft)
    (ofRight : right.Mirrors otherRight) (h : left.add op right = .ok sum) :
    ∃ other, otherLeft.add op otherRight = .ok other ∧ sum.Mirrors other := by
  obtain ⟨_, _, rfl, rfl, isLeft⟩ := ofLeft
  obtain ⟨_, _, rfl, rfl, isRight⟩ := ofRight
  cases h
  exact ⟨_, congrArg (Except.map Worth.quantity) (isLeft.add isRight), _, _, rfl, rfl, .constant _⟩

/-- A base other than zero is raised in both grammars alike. -/
theorem Worth.Mirrors.power {exponent : Float} (mirrors : worth.Mirrors other)
    (nonzero : (worth.value == 0.0) = false) (h : worth.power exponent = .ok raised) :
    ∃ result, other.power exponent = .ok result ∧ raised.Mirrors result := by
  obtain ⟨base, _, rfl, rfl, isNumber⟩ := mirrors
  obtain ⟨result, raises, isResult⟩ := isNumber.power nonzero
  have positive : (base == 0.0) = false := nonzero
  rw [Worth.power_number, positive, Bool.false_and, if_neg Bool.false_ne_true] at h
  cases h
  exact ⟨_, congrArg (Except.map Worth.quantity) raises, _, _, rfl, rfl, isResult⟩

theorem Worth.Mirrors.ofFactor {negated : Bool} (mirrors : worth.Mirrors other)
    (h : Chain.ofFactor .numeric negated worth = .ok chain) :
    ∃ result, Chain.ofFactor .quantity negated other = .ok result ∧ chain.Mirrors result := by
  obtain ⟨_, _, rfl, rfl, isNumber⟩ := mirrors
  cases h
  exact ⟨_, congrArg (Except.map Chain.quantity) isNumber.ofFactor, _, rfl, rfl⟩

theorem Chain.Mirrors.apply {op : MulOp} (ofChain : chain.Mirrors otherChain)
    (ofFactor : worth.Mirrors other) (h : chain.apply op worth = .ok extended) :
    ∃ result, otherChain.apply op other = .ok result ∧ extended.Mirrors result := by
  obtain ⟨_, rfl, rfl⟩ := ofChain
  obtain ⟨_, _, rfl, rfl, isNumber⟩ := ofFactor
  cases h
  exact ⟨_, isNumber.chain_apply, _, rfl, rfl⟩

theorem Chain.Mirrors.finish (mirrors : chain.Mirrors otherChain) :
    chain.finish.Mirrors otherChain.finish := by
  obtain ⟨value, rfl, rfl⟩ := mirrors
  exact ⟨value, _, rfl, rfl, .constant value⟩

/-- A factor that is an atom alone keeps the number of the atom. -/
theorem Worth.mirrors_ofAtom {quantity : Quantity} (same : other = .quantity quantity)
    (isNumber : quantity.IsNumber worth.value) :
    (Worth.ofAtom .numeric worth).Mirrors (Worth.ofAtom .quantity other) :=
  ⟨_, quantity, rfl, congrArg (Worth.ofAtom .quantity) same, isNumber⟩

end Mirrors

/-- What the operands before a rest are worth, among numbers and among quantities. -/
def Category.Mirrors : (category : Category) → category.Carried → category.asQuantity.Carried → Prop
  | .sumRest _, total, other => total.Mirrors other
  | .productRest _ _, chain, other => chain.Mirrors other
  | .expression _, _, _ | .term _, _, _ | .factor _ _, _, _ | .atom _ _, _, _ | .exponent, _, _ =>
    True

/-- What evaluation gives among numbers and among quantities. Names and literals are quantities in
both, and exponents are the same. -/
def Category.MirrorsEvaluated :
    (category : Category) → category.Evaluated → category.asQuantity.Evaluated → Prop
  | .sumRest _, evaluated, other => evaluated.1.Mirrors other.1
  | .productRest _ _, evaluated, other => evaluated.1.Mirrors other.1
  | .atom _ _, tree, other =>
    ∃ quantity, other.root.worth = .quantity quantity ∧ quantity.IsNumber tree.root.value
  | .expression _, tree, other | .term _, tree, other | .factor _ _, tree, other =>
    tree.root.worth.Mirrors other.root.worth
  | .exponent, tree, other => other = tree

/-- Constants without dimensions are nothing but numbers. -/
def Vocabulary.IsPlain (vocabulary : Vocabulary) : Prop :=
  ∀ name, ∀ quantity ∈ vocabulary.resolve? name, quantity.isConstant → quantity.isDimensionless →
    quantity.IsNumber quantity.value

namespace Derivation.Evaluates

variable {setting : Setting}

theorem asQuantity {derivation : Derivation category} {carried : category.Carried} {depth : Nat}
    {numbering after : Numbering} {value : category.Evaluated}
    (h : derivation.Evaluates setting carried depth numbering value after)
    (numeric : category.grammar = .numeric) (plain : setting.vocabulary.IsPlain)
    (nonzero : ∀ power ∈ derivation.powers setting.vocabulary, (power.1 == 0.0) = false)
    (other : category.asQuantity.Carried) (mirrors : category.Mirrors carried other) :
    ∃ result, derivation.asQuantity.Evaluates setting other depth numbering result after ∧
      category.MirrorsEvaluated value result := by
  induction h with
  | expression allowed _ _ ihFirst ihRest =>
    obtain ⟨above, below⟩ := List.forall_mem_append.mp nonzero
    obtain ⟨head, ofFirst, worth⟩ := ihFirst numeric above () trivial
    obtain ⟨⟨total, tail⟩, ofRest, sum⟩ := ihRest numeric below head.root.worth worth
    exact ⟨_, .expression allowed ofFirst ofRest, sum⟩
  | lastTerm => exact ⟨_, .lastTerm, mirrors⟩
  | lastFactor => exact ⟨_, .lastFactor, mirrors⟩
  | sum _ added _ ihNext ihRest =>
    obtain ⟨above, below⟩ := List.forall_mem_append.mp nonzero
    obtain ⟨operand, ofNext, isNumber⟩ := ihNext numeric above () trivial
    obtain ⟨_, adds, sum⟩ := mirrors.add isNumber added
    obtain ⟨⟨last, tail⟩, ofRest, total⟩ := ihRest numeric below _ sum
    exact ⟨_, .sum ofNext adds ofRest, total⟩
  | term _ begun _ ihFirst ihRest =>
    cases numeric
    obtain ⟨above, below⟩ := List.forall_mem_append.mp nonzero
    obtain ⟨head, ofFirst, isNumber⟩ := ihFirst rfl above () trivial
    obtain ⟨_, begins, chain⟩ := isNumber.ofFactor begun
    obtain ⟨⟨last, tail⟩, ofRest, total⟩ := ihRest rfl below _ chain
    exact ⟨_, .term ofFirst begins ofRest, total.finish⟩
  | negated _ begun _ ihFirst ihRest =>
    cases numeric
    obtain ⟨above, below⟩ := List.forall_mem_append.mp nonzero
    obtain ⟨head, ofFirst, isNumber⟩ := ihFirst rfl above () trivial
    obtain ⟨_, begins, chain⟩ := isNumber.ofFactor begun
    obtain ⟨⟨last, tail⟩, ofRest, total⟩ := ihRest rfl below _ chain
    exact ⟨_, .negated ofFirst begins ofRest, total.finish⟩
  | product _ applied _ ihNext ihRest =>
    cases numeric
    obtain ⟨above, below⟩ := List.forall_mem_append.mp nonzero
    obtain ⟨operand, ofNext, isNumber⟩ := ihNext rfl above () trivial
    obtain ⟨_, applies, chain⟩ := mirrors.apply isNumber applied
    obtain ⟨⟨last, tail⟩, ofRest, total⟩ := ihRest rfl below _ chain
    exact ⟨_, .product ofNext applies ofRest, total⟩
  | silent => cases numeric
  | factor _ ih =>
    cases numeric
    obtain ⟨atom, ofBase, _, same, isNumber⟩ := ih rfl nonzero () trivial
    exact ⟨_, .factor ofBase, Worth.mirrors_ofAtom same isNumber⟩
  | raised ofBase ofExponent operated ihBase _ =>
    cases numeric
    obtain ⟨parts, last⟩ := List.forall_mem_append.mp nonzero
    -- the base is worth the number that is among the powers
    obtain ⟨_, folded, comes⟩ := ofBase.comesTo rfl () trivial
    obtain ⟨_, rfl⟩ := (fold?_eq_some_iff _ rfl).mp folded
    have positive := last _ (List.mem_singleton_self _)
    rw [← comes] at positive
    obtain ⟨atom, ofAtom, _, same, isNumber⟩ :=
      ihBase rfl (List.forall_mem_append.mp parts).1 () trivial
    obtain ⟨_, raises, isRaised⟩ := (Worth.mirrors_ofAtom same isNumber).power positive operated
    exact ⟨_, .raised ofAtom ofExponent raises, isRaised⟩
  | name named =>
    cases numeric
    obtain ⟨quantity, resolved, constant, worth⟩ := constant_of_namedNode named
    obtain ⟨isConstant, dimensionless⟩ := Bool.and_eq_true_iff.mp constant
    refine ⟨_, .name (namedNode_asQuantity named), quantity, worth, ?_⟩
    rw [Node.value, worth]
    exact plain _ quantity resolved isConstant dimensionless
  | literal found => exact ⟨_, .literal found, _, worth_of_literalNode found, .constant _⟩
  | parenthesized _ ih =>
    obtain ⟨tree, ofInner, ⟨_, quantity, worth, same, isNumber⟩⟩ := ih numeric nonzero () trivial
    refine ⟨tree, .parenthesized ofInner, quantity, same, ?_⟩
    rw [Node.value, worth]
    exact isNumber
  | vector => cases numeric
  | integer found => exact ⟨_, .integer found, rfl⟩
  | negativeInteger found => exact ⟨_, .negativeInteger found, rfl⟩
  | grouped ofInner _ => exact ⟨_, .grouped ofInner, rfl⟩

end Derivation.Evaluates

section Whole

variable {vocabulary : Vocabulary} {setting : Setting} {tokens : List Token} {tree : Expression}

/-- Constants are not free. -/
theorem freeNames_of_namesConstants (constants : vocabulary.NamesConstants tokens) :
    vocabulary.freeNames tokens = [] := by
  refine List.filter_eq_nil_iff.mpr fun name member => ?_
  obtain ⟨token, named, rfl⟩ := List.mem_map.mp member
  obtain ⟨inside, isName⟩ := List.mem_filter.mp named
  obtain ⟨quantity, resolved, constant, _⟩ := constants token inside (of_decide_eq_true isName)
  simp [Vocabulary.isFreeName, Option.mem_def.mp resolved, isFree, constant]

/-- What is read as a number is read as a quantity that is nothing but this number, as long as
nothing that is zero is raised to a power. -/
theorem readTokens_asQuantity (plain : setting.vocabulary.IsPlain)
    (h : readTokens setting .numeric tokens = .ok tree)
    (derivation : Derivation (.expression .numeric)) (same : derivation.tokens = beforeEnd tokens)
    (nonzero : ∀ power ∈ derivation.powers setting.vocabulary, (power.1 == 0.0) = false) :
    ∃ other quantity, readTokens setting .quantity tokens = .ok other ∧ other.parameters = [] ∧
      other.root.worth = .quantity quantity ∧ quantity.IsNumber tree.root.value := by
  obtain ⟨numbering, evaluated⟩ :=
    evaluates_of_readTokens derivation (derivation.permitted_of_numeric rfl) same h
  obtain ⟨other, mirrored, number, quantity, worth, isQuantity, isNumber⟩ :=
    evaluated.asQuantity rfl plain nonzero () trivial
  have tokens : derivation.asQuantity.tokens = beforeEnd tokens :=
    derivation.tokens_asQuantity.trans same
  have read : readTokens setting .quantity _ = .ok other := readTokens_eq_ok_iff.mpr
    ⟨derivation.asQuantity, numbering, derivation.permitted_asQuantity rfl, tokens, mirrored⟩
  obtain ⟨_, folded, _⟩ := evaluated.comesTo rfl () trivial
  obtain ⟨meant, _⟩ := ((derivation.fold?_eq_some_iff rfl).mp folded).1
  have bound : setting.vocabulary.freeNames derivation.tokens = [] :=
    freeNames_of_namesConstants fun token member => (meant token member).2
  refine ⟨other, quantity, read, ?_, isQuantity, ?_⟩
  · rw [parameters_of_readTokens read, ← same, bound]
    rfl
  · rw [Node.value, worth]
    exact isNumber

end Whole

end Dimensional
