import Dimensional.Proofs.Derivation.Result
import Dimensional.Proofs.Judgement

/-! Numeric parts that come to a number are evaluated to it. -/

namespace Dimensional

open Dimensional.Parser

/-- Whether so many expressions may be open at once. -/
def Parser.Setting.Admits (setting : Setting) (depth : Nat) : Prop :=
  ∀ limit ∈ setting.limit?, depth ≤ limit

theorem Parser.Setting.Admits.mono {setting : Setting} {depth deeper : Nat}
    (admits : setting.Admits deeper) (le : depth ≤ deeper) : setting.Admits depth :=
  fun limit member => Nat.le_trans le (admits limit member)

theorem allowNesting_eq_ok {setting : Setting} {depth : Nat} (admits : setting.Admits (depth + 1)) :
    allowNesting setting.limit? depth = .ok () := by
  unfold allowNesting
  cases limited : setting.limit? with
  | none => rfl
  | some limit =>
    have le : depth + 1 ≤ limit := admits limit limited
    have more : ¬ limit < depth + 1 := Nat.not_lt.mpr le
    simp [Option.filter, more]

/-- The grammar of what is derived. Exponents are numeric. -/
def Category.grammar : Category → Grammar
  | .expression grammar | .sumRest grammar | .term grammar | .productRest grammar _
  | .factor grammar _ | .atom grammar _ => grammar
  | .exponent => .numeric

/-- What the operands before a rest come to is a number. -/
def Category.BeginsAt : (category : Category) → category.Carried → category.CarriedNumber → Prop
  | .sumRest _, total, value => total = .number value
  | .productRest _ _, chain, value => chain = .number value
  | .expression _, _, _ | .term _, _, _ | .factor _ _, _, _ | .atom _ _, _, _ | .exponent, _, _ =>
    True

/-- Evaluation gives a number. Names and literals alone keep their quantity. -/
def Category.ComesTo : (category : Category) → category.Evaluated → Float → Prop
  | .sumRest _, evaluated, value => evaluated.1 = .number value
  | .productRest _ _, evaluated, value => evaluated.1 = .number value
  | .atom _ _, tree, value => tree.root.worth.value = value
  | .expression _, tree, value | .term _, tree, value | .factor _ _, tree, value
  | .exponent, tree, value => tree.root.worth = .number value

theorem literalNode_of_read? {token : Token} {value : Float}
    (h : Number.read? token.text = some value) :
    ∃ tree, literalNode token = .ok tree ∧ tree.root.worth = .quantity (.constant value) := by
  unfold literalNode
  rw [h]
  exact ⟨_, rfl, rfl⟩

/-- A part that comes to a number is evaluated to it, wherever it stands. -/
def Derivation.Folds (setting : Setting) (derivation : Derivation category) : Prop :=
  ∀ carried number value depth numbering, category.BeginsAt carried number →
    setting.Admits (depth + derivation.nesting) →
    derivation.fold? setting.vocabulary number = some value →
    ∃ evaluated after,
      derivation.evaluate setting carried depth numbering = .ok (evaluated, after) ∧
        category.ComesTo evaluated value

namespace Derivation.Folds

variable {setting : Setting}

theorem expression {first : Derivation (.term grammar)} {rest : Derivation (.sumRest grammar)}
    (ofFirst : first.Folds setting) (ofRest : rest.Folds setting) :
    (Derivation.expression first rest).Folds setting := by
  intro _ _ value depth numbering _ admits h
  have allowed : allowNesting setting.limit? depth = .ok () :=
    allowNesting_eq_ok (admits.mono (by rw [nesting]; omega))
  obtain ⟨head, folded, h⟩ := Option.bind_eq_some_iff.mp h
  obtain ⟨tree, between, read, worth⟩ := ofFirst () () head (depth + 1) numbering trivial
    (admits.mono (by rw [nesting]; omega)) folded
  obtain ⟨total, after, more, same⟩ := ofRest tree.root.worth head value (depth + 1) between worth
    (admits.mono (by rw [nesting]; omega)) h
  exact ⟨_, _, Except.bind_eq_ok.mpr ⟨(), allowed, Except.bind_eq_ok.mpr ⟨_, read,
    Except.bind_eq_ok.mpr ⟨_, more, rfl⟩⟩⟩, same⟩

theorem lastTerm : (Derivation.lastTerm : Derivation (.sumRest grammar)).Folds setting := by
  intro total number value _ _ begins _ h
  cases h
  exact ⟨_, _, rfl, begins⟩

theorem sum {op : AddOp} {sign : Terminal op.kind} {next : Derivation (.term grammar)}
    {rest : Derivation (.sumRest grammar)} (ofNext : next.Folds setting)
    (ofRest : rest.Folds setting) : (Derivation.sum op sign next rest).Folds setting := by
  intro total number value depth numbering begins admits h
  obtain ⟨operand, folded, h⟩ := Option.bind_eq_some_iff.mp h
  obtain ⟨tree, between, read, worth⟩ := ofNext () () operand depth numbering trivial
    (admits.mono (by rw [nesting]; omega)) folded
  have same : tree.root.worth = .number operand := worth
  have added : total.add op tree.root.worth = .ok (.number (op.operation number operand)) := by
    rw [begins, same, ← op.apply_eq_operation]
    rfl
  obtain ⟨result, after, more, last⟩ := ofRest (.number (op.operation number operand)) _ value depth
    between rfl (admits.mono (by rw [nesting]; omega)) h
  exact ⟨_, _, Except.bind_eq_ok.mpr ⟨_, read, Except.bind_eq_ok.mpr ⟨_, locate_eq_ok.mpr added,
    Except.bind_eq_ok.mpr ⟨_, more, rfl⟩⟩⟩, last⟩

/-- A term with its sign. -/
theorem signed (isNegated : Bool) {scale : Float}
    (scaled : (if isNegated then -1.0 else 1.0) = scale)
    {first : Derivation (.factor .numeric isNumber)}
    {rest : Derivation (.productRest .numeric isNumber)} (ofFirst : first.Folds setting)
    (ofRest : rest.Folds setting) {value : Float} {depth : Nat} {numbering : Numbering}
    (admits : setting.Admits (depth + max first.nesting rest.nesting))
    (h : (do rest.fold? setting.vocabulary (scale * (← first.fold? setting.vocabulary ()))) =
      some value) :
    ∃ head between chain total tail after,
      first.evaluate setting () depth numbering = .ok (head, between) ∧
        Chain.ofFactor .numeric isNegated head.root.worth = .ok chain ∧
        rest.evaluate setting chain depth between = .ok ((total, tail), after) ∧
        total.finish = .number value := by
  obtain ⟨number, folded, h⟩ := Option.bind_eq_some_iff.mp h
  obtain ⟨head, between, read, worth⟩ := ofFirst () () number depth numbering trivial
    (admits.mono (by omega)) folded
  have same : head.root.worth = .number number := worth
  have begun : Chain.ofFactor .numeric isNegated head.root.worth =
      .ok (.number (scale * number)) := by
    rw [same, ← scaled]
    rfl
  obtain ⟨⟨total, tail⟩, after, more, last⟩ := ofRest (.number (scale * number)) _ value depth
    between rfl (admits.mono (by omega)) h
  exact ⟨head, between, _, total, tail, after, read, begun, more, congrArg Chain.finish last⟩

theorem term {first : Derivation (.factor .numeric isNumber)}
    {rest : Derivation (.productRest .numeric isNumber)} (ofFirst : first.Folds setting)
    (ofRest : rest.Folds setting) : (Derivation.term first rest).Folds setting := by
  intro _ _ value depth numbering _ admits h
  obtain ⟨head, between, chain, total, tail, after, read, begun, more, last⟩ :=
    signed false (if_neg Bool.false_ne_true) ofFirst ofRest admits h
  exact ⟨_, _, Except.bind_eq_ok.mpr ⟨_, read, Except.bind_eq_ok.mpr ⟨_, locate_eq_ok.mpr begun,
    Except.bind_eq_ok.mpr ⟨_, more, rfl⟩⟩⟩, last⟩

theorem negated {minus : Terminal .minus} {first : Derivation (.factor .numeric isNumber)}
    {rest : Derivation (.productRest .numeric isNumber)} (ofFirst : first.Folds setting)
    (ofRest : rest.Folds setting) : (Derivation.negated minus first rest).Folds setting := by
  intro _ _ value depth numbering _ admits h
  obtain ⟨head, between, chain, total, tail, after, read, begun, more, last⟩ :=
    signed true (if_pos rfl) ofFirst ofRest admits h
  exact ⟨_, _, Except.bind_eq_ok.mpr ⟨_, read, Except.bind_eq_ok.mpr ⟨_, locate_eq_ok.mpr begun,
    Except.bind_eq_ok.mpr ⟨_, more, rfl⟩⟩⟩, last⟩

theorem lastFactor :
    (Derivation.lastFactor : Derivation (.productRest grammar afterLiteral)).Folds setting := by
  intro chain number value _ _ begins _ h
  cases h
  exact ⟨_, _, rfl, begins⟩

theorem product {op : MulOp} {sign : Terminal op.kind}
    {next : Derivation (.factor .numeric isNumber)}
    {rest : Derivation (.productRest .numeric isNumber)} (ofNext : next.Folds setting)
    (ofRest : rest.Folds setting) :
    (Derivation.product op sign next rest :
      Derivation (.productRest .numeric afterLiteral)).Folds setting := by
  intro chain number value depth numbering begins admits h
  obtain ⟨operand, folded, h⟩ := Option.bind_eq_some_iff.mp h
  obtain ⟨tree, between, read, worth⟩ := ofNext () () operand depth numbering trivial
    (admits.mono (by rw [nesting]; omega)) folded
  have same : tree.root.worth = .number operand := worth
  have applied : chain.apply op tree.root.worth =
      .ok (.number (skippingZero op.operation number operand)) := by
    rw [begins, same, ← op.apply_eq_skippingZero]
    rfl
  obtain ⟨result, after, more, last⟩ := ofRest (.number _) _ value depth between rfl
    (admits.mono (by rw [nesting]; omega)) h
  exact ⟨_, _, Except.bind_eq_ok.mpr ⟨_, read, Except.bind_eq_ok.mpr ⟨_, locate_eq_ok.mpr applied,
    Except.bind_eq_ok.mpr ⟨_, more, rfl⟩⟩⟩, last⟩

theorem factor {base : Derivation (.atom .numeric isNumber)} (ofBase : base.Folds setting) :
    (Derivation.factor base).Folds setting := by
  intro _ _ value depth numbering _ admits h
  obtain ⟨tree, after, read, worth⟩ := ofBase () () value depth numbering trivial admits h
  exact ⟨_, _, Except.bind_eq_ok.mpr ⟨_, read, rfl⟩, congrArg Worth.number worth⟩

theorem raised {base : Derivation (.atom .numeric isNumber)} {sign : Terminal .power}
    {exponent : Derivation .exponent} (ofBase : base.Folds setting)
    (ofExponent : exponent.Folds setting) :
    (Derivation.raised base sign exponent).Folds setting := by
  intro _ _ value depth numbering _ admits h
  obtain ⟨number, folded, h⟩ := Option.bind_eq_some_iff.mp h
  obtain ⟨times, counted, h⟩ := Option.bind_eq_some_iff.mp h
  obtain ⟨tree, between, read, worth⟩ := ofBase () () number depth numbering trivial
    (admits.mono (by rw [nesting]; omega)) folded
  obtain ⟨power, after, more, powerWorth⟩ := ofExponent () () times depth between trivial
    (admits.mono (by rw [nesting]; omega)) counted
  have ofAtom : Worth.ofAtom .numeric tree.root.worth = .number number :=
    congrArg Worth.number worth
  have ofPower : power.root.value = times := congrArg Worth.value powerWorth
  have defined : ¬ (number == 0.0 && times == 0.0) = true := by
    intro zero
    rw [if_pos zero] at h
    cases h
  rw [if_neg defined] at h
  have operated : (Worth.ofAtom .numeric tree.root.worth).power power.root.value =
      .ok (.number value) := by
    rw [ofAtom, ofPower, ← Option.some.inj h]
    exact if_neg defined
  exact ⟨_, _, Except.bind_eq_ok.mpr ⟨_, read, Except.bind_eq_ok.mpr ⟨_, more,
    Except.bind_eq_ok.mpr ⟨_, locate_eq_ok.mpr operated, rfl⟩⟩⟩, rfl⟩

theorem name {token : Terminal .identifier} :
    (Derivation.name token : Derivation (.atom .numeric false)).Folds setting := by
  intro _ _ value depth numbering _ _ h
  obtain ⟨quantity, found, h⟩ := Option.bind_eq_some_iff.mp h
  by_cases plain : (quantity.isConstant && quantity.isDimensionless) = true
  · rw [if_pos plain] at h
    cases h
    obtain ⟨constant, dimensionless⟩ := Bool.and_eq_true_iff.mp plain
    refine ⟨nameNode token.val quantity none, numbering, ?_, rfl⟩
    change namedNode setting.vocabulary .numeric token.val numbering = _
    unfold namedNode
    rw [found]
    simp [constant, dimensionless]
  · rw [if_neg plain] at h
    cases h

theorem literal {token : Terminal .number} :
    (Derivation.literal token : Derivation (.atom grammar true)).Folds setting := by
  intro _ _ value _ _ _ _ h
  obtain ⟨tree, read, worth⟩ := literalNode_of_read? h
  exact ⟨_, _, Except.bind_eq_ok.mpr ⟨_, read, rfl⟩, congrArg Worth.value worth⟩

theorem parenthesized {opening : Terminal .openParen} {inner : Derivation (.expression .numeric)}
    {closing : Terminal .closeParen} (ofInner : inner.Folds setting) :
    (Derivation.parenthesized opening inner closing).Folds setting := by
  intro _ _ value depth numbering _ admits h
  obtain ⟨tree, after, read, worth⟩ := ofInner () () value depth numbering trivial admits h
  exact ⟨tree, after, read, congrArg Worth.value worth⟩

/-- The digits of an integer, with a factor for its sign. -/
theorem digits {number : Terminal .number} {scale value : Float}
    (h : (do some (scale * (← Number.read? number.val.text))) = some value) :
    ∃ tree, literalNode number.val = .ok tree ∧ scale * tree.root.value = value := by
  obtain ⟨digits, found, h⟩ := Option.bind_eq_some_iff.mp h
  obtain ⟨tree, read, worth⟩ := literalNode_of_read? found
  have ofDigits : tree.root.value = digits := congrArg Worth.value worth
  refine ⟨tree, read, ?_⟩
  rw [ofDigits]
  exact Option.some.inj h

theorem integer {number : Terminal .number} : (Derivation.integer number).Folds setting := by
  intro _ _ value _ _ _ _ h
  obtain ⟨tree, read, same⟩ := digits h
  exact ⟨_, _, Except.bind_eq_ok.mpr ⟨_, read, rfl⟩, congrArg Worth.number same⟩

theorem negativeInteger {minus : Terminal .minus} {number : Terminal .number} :
    (Derivation.negativeInteger minus number).Folds setting := by
  intro _ _ value _ _ _ _ h
  obtain ⟨tree, read, same⟩ := digits h
  exact ⟨_, _, Except.bind_eq_ok.mpr ⟨_, read, rfl⟩, congrArg Worth.number same⟩

end Derivation.Folds

/-- Numeric parts that come to a number are evaluated to it, as long as they are not nested too
deeply. -/
theorem Derivation.folds {setting : Setting} (derivation : Derivation category)
    (numeric : category.grammar = .numeric) : derivation.Folds setting := by
  induction derivation with
  | expression first rest ihFirst ihRest => exact .expression (ihFirst numeric) (ihRest numeric)
  | lastTerm => exact .lastTerm
  | sum op sign next rest ihNext ihRest => exact .sum (ihNext numeric) (ihRest numeric)
  | term first rest ihFirst ihRest =>
    cases numeric
    exact .term (ihFirst rfl) (ihRest rfl)
  | negated minus first rest ihFirst ihRest =>
    cases numeric
    exact .negated (ihFirst rfl) (ihRest rfl)
  | lastFactor => exact .lastFactor
  | product op sign next rest ihNext ihRest =>
    cases numeric
    exact .product (ihNext rfl) (ihRest rfl)
  | silent => cases numeric
  | factor base ih =>
    cases numeric
    exact .factor (ih rfl)
  | raised base sign exponent ihBase ihExponent =>
    cases numeric
    exact .raised (ihBase rfl) (ihExponent rfl)
  | name token =>
    cases numeric
    exact .name
  | literal token => exact .literal
  | parenthesized opening inner closing ih =>
    cases numeric
    exact .parenthesized (ih rfl)
  | vector => cases numeric
  | integer number => exact .integer
  | negativeInteger minus number => exact .negativeInteger
  | grouped opening inner closing ih => exact ih rfl

end Dimensional
