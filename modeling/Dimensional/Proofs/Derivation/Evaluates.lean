import Dimensional.Proofs.Derivation.Evaluation

/-! What evaluation does, as one rule for each production. Whatever holds of all that is evaluated is
proved by induction over these rules. -/

namespace Dimensional

open Dimensional.Parser

/-- What a derivation comes to and the names numbered afterwards, with so many expressions open and
some names numbered before. -/
inductive Derivation.Evaluates (setting : Setting) :
    Derivation category → category.Carried → Nat → Numbering → category.Evaluated → Numbering →
      Prop where
  | expression {first : Derivation (.term grammar)} {rest : Derivation (.sumRest grammar)}
      {head : Expression} {total : Worth} {tail : List Expression}
      (allowed : allowNesting setting.limit? depth = .ok ())
      (ofFirst : Evaluates setting first () (depth + 1) numbering head between)
      (ofRest : Evaluates setting rest head.root.worth (depth + 1) between (total, tail) after) :
      Evaluates setting (.expression first rest) () depth numbering
        (.node {
          shape := .expression grammar, location := first.location
          worth := total } (head :: tail)) after
  | lastTerm {total : Worth} :
      Evaluates setting (.lastTerm : Derivation (.sumRest grammar)) total depth numbering (total, [])
        numbering
  | sum {op : AddOp} {sign : Terminal op.kind} {next : Derivation (.term grammar)}
      {rest : Derivation (.sumRest grammar)} {operand : Expression} {sum total last : Worth}
      {tail : List Expression}
      (ofNext : Evaluates setting next () depth numbering operand between)
      (added : sum.add op operand.root.worth = .ok total)
      (ofRest : Evaluates setting rest total depth between (last, tail) after) :
      Evaluates setting (.sum op sign next rest) sum depth numbering
        (last, signLeaf (.sum op) sign.val :: operand :: tail) after
  | term {first : Derivation (.factor grammar isNumber)}
      {rest : Derivation (.productRest grammar isNumber)} {head : Expression} {chain last : Chain}
      {tail : List Expression}
      (ofFirst : Evaluates setting first () depth numbering head between)
      (begun : Chain.ofFactor grammar false head.root.worth = .ok chain)
      (ofRest : Evaluates setting rest chain depth between (last, tail) after) :
      Evaluates setting (.term first rest) () depth numbering
        (.node {
          shape := .term, location := first.location
          worth := last.finish } (head :: tail)) after
  | negated {minus : Terminal .minus} {first : Derivation (.factor grammar isNumber)}
      {rest : Derivation (.productRest grammar isNumber)} {head : Expression} {chain last : Chain}
      {tail : List Expression}
      (ofFirst : Evaluates setting first () depth numbering head between)
      (begun : Chain.ofFactor grammar true head.root.worth = .ok chain)
      (ofRest : Evaluates setting rest chain depth between (last, tail) after) :
      Evaluates setting (.negated minus first rest) () depth numbering
        (.node {
          shape := .term, location := minus.val.location
          worth := last.finish } (signLeaf .negation minus.val :: head :: tail)) after
  | lastFactor {chain : Chain} :
      Evaluates setting (.lastFactor : Derivation (.productRest grammar afterLiteral)) chain depth
        numbering (chain, []) numbering
  | product {op : MulOp} {sign : Terminal op.kind} {next : Derivation (.factor grammar isNumber)}
      {rest : Derivation (.productRest grammar isNumber)} {operand : Expression}
      {chain extended last : Chain} {tail : List Expression}
      (ofNext : Evaluates setting next () depth numbering operand between)
      (applied : chain.apply op operand.root.worth = .ok extended)
      (ofRest : Evaluates setting rest extended depth between (last, tail) after) :
      Evaluates setting
        (.product op sign next rest : Derivation (.productRest grammar afterLiteral)) chain depth
        numbering (last, signLeaf (.product op) sign.val :: operand :: tail) after
  | silent {next : Derivation (.factor .quantity false)}
      {rest : Derivation (.productRest .quantity false)} {operand : Expression}
      {chain extended last : Chain} {tail : List Expression}
      (ofNext : Evaluates setting next () depth numbering operand between)
      (applied : chain.apply .times operand.root.worth = .ok extended)
      (ofRest : Evaluates setting rest extended depth between (last, tail) after) :
      Evaluates setting (.silent next rest) chain depth numbering
        (last, signLeaf (.product .times) next.leading :: operand :: tail) after
  | factor {base : Derivation (.atom grammar isNumber)} {atom : Expression}
      (ofBase : Evaluates setting base () depth numbering atom after) :
      Evaluates setting (.factor base) () depth numbering
        (.node {
          shape := .factor, location := base.location
          worth := Worth.ofAtom grammar atom.root.worth } [atom]) after
  | raised {base : Derivation (.atom grammar isNumber)} {sign : Terminal .power}
      {exponent : Derivation .exponent} {atom power : Expression} {raised : Worth}
      (ofBase : Evaluates setting base () depth numbering atom between)
      (ofExponent : Evaluates setting exponent () depth between power after)
      (operated : (Worth.ofAtom grammar atom.root.worth).power power.root.value = .ok raised) :
      Evaluates setting (.raised base sign exponent) () depth numbering
        (.node {
          shape := .factor, location := base.location
          worth := raised } [atom, signLeaf .power sign.val, power]) after
  | name {token : Terminal .identifier} {leaf : Expression}
      (named : namedNode setting.vocabulary grammar token.val numbering = .ok (leaf, after)) :
      Evaluates setting (.name token : Derivation (.atom grammar false)) () depth numbering leaf
        after
  | literal {token : Terminal .number} {leaf : Expression}
      (found : literalNode token.val = .ok leaf) :
      Evaluates setting (.literal token : Derivation (.atom grammar true)) () depth numbering leaf
        numbering
  | parenthesized {opening : Terminal .openParen} {inner : Derivation (.expression grammar)}
      {closing : Terminal .closeParen} {tree : Expression}
      (ofInner : Evaluates setting inner () depth numbering tree after) :
      Evaluates setting (.parenthesized opening inner closing) () depth numbering tree after
  | vector {op : VectorOp} {keyword : Terminal op.kind} {opening : Terminal .openParen}
      {left right : Derivation (.expression .quantity)} {comma : Terminal .comma}
      {closing : Terminal .closeParen} {first second : Expression} {product : Quantity}
      (ofLeft : Evaluates setting left () depth numbering first between)
      (ofRight : Evaluates setting right () depth between second after)
      (operated : Quantity.vectorProduct op first.root.worth.toQuantity
        second.root.worth.toQuantity (setting.vocabulary.dimension? Quantity.angleKey) =
          .ok product) :
      Evaluates setting (.vector op keyword opening left comma right closing) () depth numbering
        (.node {
          shape := .vector op, location := keyword.val.location
          worth := .quantity product } [first, second]) after
  | integer {number : Terminal .number} {digits : Expression}
      (found : literalNode number.val = .ok digits) :
      Evaluates setting (.integer number) () depth numbering
        (.node {
          shape := .integer, location := number.val.location
          worth := .number (1.0 * digits.root.value) } [digits]) numbering
  | negativeInteger {minus : Terminal .minus} {number : Terminal .number} {digits : Expression}
      (found : literalNode number.val = .ok digits) :
      Evaluates setting (.negativeInteger minus number) () depth numbering
        (.node {
          shape := .integer, location := minus.val.location
          worth := .number (-1.0 * digits.root.value) }
          [signLeaf .negation minus.val, digits]) numbering
  | grouped {opening : Terminal .openParen} {inner : Derivation (.expression .numeric)}
      {closing : Terminal .closeParen} {tree : Expression}
      (ofInner : Evaluates setting inner () depth numbering tree after) :
      Evaluates setting (.grouped opening inner closing) () depth numbering tree after

namespace Derivation

variable {setting : Setting} {derivation : Derivation category} {carried : category.Carried}
  {depth : Nat} {numbering after : Numbering} {value : category.Evaluated}

/-- The rules are those of evaluation. -/
theorem Evaluates.evaluate_eq_ok
    (h : derivation.Evaluates setting carried depth numbering value after) :
    derivation.evaluate setting carried depth numbering = .ok (value, after) := by
  induction h with
  | expression allowed _ _ ihFirst ihRest =>
    exact Except.bind_eq_ok.mpr ⟨(), allowed, Except.bind_eq_ok.mpr ⟨_, ihFirst,
      Except.bind_eq_ok.mpr ⟨_, ihRest, rfl⟩⟩⟩
  | lastTerm | lastFactor => rfl
  | sum _ operated _ ihNext ihRest | product _ operated _ ihNext ihRest
  | silent _ operated _ ihNext ihRest | term _ operated _ ihNext ihRest
  | negated _ operated _ ihNext ihRest =>
    exact Except.bind_eq_ok.mpr ⟨_, ihNext, Except.bind_eq_ok.mpr ⟨_, locate_eq_ok.mpr operated,
      Except.bind_eq_ok.mpr ⟨_, ihRest, rfl⟩⟩⟩
  | factor _ ih => exact Except.bind_eq_ok.mpr ⟨_, ih, rfl⟩
  | raised _ _ operated ihLeft ihRight | vector _ _ operated ihLeft ihRight =>
    exact Except.bind_eq_ok.mpr ⟨_, ihLeft, Except.bind_eq_ok.mpr ⟨_, ihRight,
      Except.bind_eq_ok.mpr ⟨_, locate_eq_ok.mpr operated, rfl⟩⟩⟩
  | name named => exact named
  | literal found | integer found | negativeInteger found =>
    exact Except.bind_eq_ok.mpr ⟨_, found, rfl⟩
  | parenthesized _ ih | grouped _ ih => exact ih

theorem evaluates_of_eq_ok
    (h : derivation.evaluate setting carried depth numbering = .ok (value, after)) :
    derivation.Evaluates setting carried depth numbering value after := by
  induction derivation generalizing depth numbering after with
  | expression first rest ihFirst ihRest =>
    obtain ⟨_, allowed, h⟩ := Except.bind_eq_ok.mp h
    obtain ⟨⟨head, _⟩, read, h⟩ := Except.bind_eq_ok.mp h
    obtain ⟨⟨⟨total, tail⟩, _⟩, more, h⟩ := Except.bind_eq_ok.mp h
    cases h
    exact .expression allowed (ihFirst read) (ihRest more)
  | lastTerm =>
    cases h
    exact .lastTerm
  | sum op sign next rest ihNext ihRest =>
    obtain ⟨⟨operand, _⟩, read, h⟩ := Except.bind_eq_ok.mp h
    obtain ⟨total, added, h⟩ := Except.bind_eq_ok.mp h
    obtain ⟨⟨⟨last, tail⟩, _⟩, more, h⟩ := Except.bind_eq_ok.mp h
    cases h
    exact .sum (ihNext read) (locate_eq_ok.mp added) (ihRest more)
  | term first rest ihFirst ihRest =>
    obtain ⟨⟨head, _⟩, read, h⟩ := Except.bind_eq_ok.mp h
    obtain ⟨chain, begun, h⟩ := Except.bind_eq_ok.mp h
    obtain ⟨⟨⟨last, tail⟩, _⟩, more, h⟩ := Except.bind_eq_ok.mp h
    cases h
    exact .term (ihFirst read) (locate_eq_ok.mp begun) (ihRest more)
  | negated minus first rest ihFirst ihRest =>
    obtain ⟨⟨head, _⟩, read, h⟩ := Except.bind_eq_ok.mp h
    obtain ⟨chain, begun, h⟩ := Except.bind_eq_ok.mp h
    obtain ⟨⟨⟨last, tail⟩, _⟩, more, h⟩ := Except.bind_eq_ok.mp h
    cases h
    exact .negated (ihFirst read) (locate_eq_ok.mp begun) (ihRest more)
  | lastFactor =>
    cases h
    exact .lastFactor
  | product op sign next rest ihNext ihRest =>
    obtain ⟨⟨operand, _⟩, read, h⟩ := Except.bind_eq_ok.mp h
    obtain ⟨chain, applied, h⟩ := Except.bind_eq_ok.mp h
    obtain ⟨⟨⟨last, tail⟩, _⟩, more, h⟩ := Except.bind_eq_ok.mp h
    cases h
    exact .product (ihNext read) (locate_eq_ok.mp applied) (ihRest more)
  | silent next rest ihNext ihRest =>
    obtain ⟨⟨operand, _⟩, read, h⟩ := Except.bind_eq_ok.mp h
    obtain ⟨chain, applied, h⟩ := Except.bind_eq_ok.mp h
    obtain ⟨⟨⟨last, tail⟩, _⟩, more, h⟩ := Except.bind_eq_ok.mp h
    cases h
    exact .silent (ihNext read) (locate_eq_ok.mp applied) (ihRest more)
  | factor base ih =>
    obtain ⟨⟨atom, _⟩, read, h⟩ := Except.bind_eq_ok.mp h
    cases h
    exact .factor (ih read)
  | raised base sign exponent ihBase ihExponent =>
    obtain ⟨⟨atom, _⟩, read, h⟩ := Except.bind_eq_ok.mp h
    obtain ⟨⟨power, _⟩, more, h⟩ := Except.bind_eq_ok.mp h
    obtain ⟨raised, operated, h⟩ := Except.bind_eq_ok.mp h
    cases h
    exact .raised (ihBase read) (ihExponent more) (locate_eq_ok.mp operated)
  | name token => exact .name h
  | literal token =>
    obtain ⟨leaf, found, h⟩ := Except.bind_eq_ok.mp h
    cases h
    exact .literal found
  | parenthesized opening inner closing ih => exact .parenthesized (ih h)
  | vector op keyword opening left comma right closing ihLeft ihRight =>
    obtain ⟨⟨first, _⟩, read, h⟩ := Except.bind_eq_ok.mp h
    obtain ⟨⟨second, _⟩, more, h⟩ := Except.bind_eq_ok.mp h
    obtain ⟨product, operated, h⟩ := Except.bind_eq_ok.mp h
    cases h
    exact .vector (ihLeft read) (ihRight more) (locate_eq_ok.mp operated)
  | integer number =>
    obtain ⟨digits, found, h⟩ := Except.bind_eq_ok.mp h
    cases h
    exact .integer found
  | negativeInteger minus number =>
    obtain ⟨digits, found, h⟩ := Except.bind_eq_ok.mp h
    cases h
    exact .negativeInteger found
  | grouped opening inner closing ih => exact .grouped (ih h)

theorem evaluates_iff :
    derivation.Evaluates setting carried depth numbering value after ↔
      derivation.evaluate setting carried depth numbering = .ok (value, after) :=
  ⟨Evaluates.evaluate_eq_ok, evaluates_of_eq_ok⟩

end Derivation

end Dimensional
