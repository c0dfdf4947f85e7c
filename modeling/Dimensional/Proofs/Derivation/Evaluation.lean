import Dimensional.Proofs.Derivation
import Dimensional.Proofs.Parser.Equations

/-! Derivations are evaluated without looking at tokens again, in the order in which their parts
stand in the source. -/

namespace Dimensional

open Dimensional.Parser

/-- What the operands before a rest are worth together. -/
abbrev Category.Carried : Category → Type
  | .sumRest _ => Worth
  | .productRest _ _ => Chain
  | _ => Unit

/-- What evaluation gives: a tree, or what all operands are worth and the trees of a rest. -/
abbrev Category.Evaluated : Category → Type
  | .sumRest _ => Worth × List Expression
  | .productRest _ _ => Chain × List Expression
  | _ => Expression

/-- The leaf of a sign. -/
def signLeaf (shape : Shape) (token : Token) : Expression :=
  .leaf { shape, location := token.location }

namespace Derivation

/-- Evaluate with so many expressions open and some names numbered. -/
@[simp] def evaluate (setting : Setting) :
    Derivation category → category.Carried → Nat → Numbering →
      Except ParseError (category.Evaluated × Numbering)
  | @expression grammar first rest, _, depth, numbering => do
    allowNesting setting.limit? depth
    let (head, numbering) ← first.evaluate setting () (depth + 1) numbering
    let ((total, tail), numbering) ←
      rest.evaluate setting head.root.worth (depth + 1) numbering
    .ok (.node {
      shape := .expression grammar, location := first.location
      worth := total } (head :: tail), numbering)
  | lastTerm, total, _, numbering => .ok ((total, []), numbering)
  | sum op sign next rest, total, depth, numbering => do
    let (operand, numbering) ← next.evaluate setting () depth numbering
    let total ← locate sign.val.location (total.add op operand.root.worth)
    let ((total, tail), numbering) ← rest.evaluate setting total depth numbering
    .ok ((total, signLeaf (.sum op) sign.val :: operand :: tail), numbering)
  | @term grammar _ first rest, _, depth, numbering => do
    let (head, numbering) ← first.evaluate setting () depth numbering
    let chain ← locate head.root.location (Chain.ofFactor grammar false head.root.worth)
    let ((chain, tail), numbering) ← rest.evaluate setting chain depth numbering
    .ok (.node {
      shape := .term, location := first.location
      worth := chain.finish } (head :: tail), numbering)
  | @negated grammar _ minus first rest, _, depth, numbering => do
    let (head, numbering) ← first.evaluate setting () depth numbering
    let chain ← locate head.root.location (Chain.ofFactor grammar true head.root.worth)
    let ((chain, tail), numbering) ← rest.evaluate setting chain depth numbering
    .ok (.node {
      shape := .term, location := minus.val.location
      worth := chain.finish } (signLeaf .negation minus.val :: head :: tail), numbering)
  | lastFactor, chain, _, numbering => .ok ((chain, []), numbering)
  | product op sign next rest, chain, depth, numbering => do
    let (operand, numbering) ← next.evaluate setting () depth numbering
    let chain ← locate sign.val.location (chain.apply op operand.root.worth)
    let ((chain, tail), numbering) ← rest.evaluate setting chain depth numbering
    .ok ((chain, signLeaf (.product op) sign.val :: operand :: tail), numbering)
  | silent next rest, chain, depth, numbering => do
    let (operand, numbering) ← next.evaluate setting () depth numbering
    let chain ← locate next.location (chain.apply .times operand.root.worth)
    let ((chain, tail), numbering) ← rest.evaluate setting chain depth numbering
    .ok ((chain, signLeaf (.product .times) next.leading :: operand :: tail), numbering)
  | @factor grammar _ base, _, depth, numbering => do
    let (atom, numbering) ← base.evaluate setting () depth numbering
    .ok (.node {
      shape := .factor, location := base.location
      worth := Worth.ofAtom grammar atom.root.worth } [atom], numbering)
  | @raised grammar _ base sign exponent, _, depth, numbering => do
    let (atom, numbering) ← base.evaluate setting () depth numbering
    let (power, numbering) ← exponent.evaluate setting () depth numbering
    let raised ← locate power.root.location
      ((Worth.ofAtom grammar atom.root.worth).power power.root.value)
    .ok (.node {
      shape := .factor, location := base.location
      worth := raised } [atom, signLeaf .power sign.val, power], numbering)
  | @name grammar token, _, _, numbering =>
    namedNode setting.vocabulary grammar token.val numbering
  | literal token, _, _, numbering => do
    let number ← literalNode token.val
    .ok (number, numbering)
  | @parenthesized grammar _ inner _, _, depth, numbering =>
    @evaluate (.expression grammar) setting inner () depth numbering
  | vector op keyword _ left _ right _, _, depth, numbering => do
    let (first, numbering) ← left.evaluate setting () depth numbering
    let (second, numbering) ← right.evaluate setting () depth numbering
    let product ← locate keyword.val.location (Quantity.vectorProduct op
      first.root.worth.toQuantity second.root.worth.toQuantity
      (setting.vocabulary.dimension? Quantity.angleKey))
    .ok (.node {
      shape := .vector op, location := keyword.val.location
      worth := .quantity product } [first, second], numbering)
  | integer number, _, _, numbering => do
    let digits ← literalNode number.val
    .ok (.node {
      shape := .integer, location := number.val.location
      worth := .number (1.0 * digits.root.value) } [digits], numbering)
  | negativeInteger minus number, _, _, numbering => do
    let digits ← literalNode number.val
    .ok (.node {
      shape := .integer, location := minus.val.location
      worth := .number (-1.0 * digits.root.value) }
      [signLeaf .negation minus.val, digits], numbering)
  | grouped _ inner _, _, depth, numbering =>
    @evaluate (.expression .numeric) setting inner () depth numbering

section Shape

variable {setting : Setting} {depth : Nat} {numbering after : Numbering} {tree : Expression}

theorem expression_shape_of_evaluate {derivation : Derivation (.expression grammar)}
    (h : derivation.evaluate setting () depth numbering = .ok (tree, after)) :
    tree.root.shape = .expression grammar := by
  cases derivation with
  | expression first rest =>
    obtain ⟨_, _, h⟩ := Except.bind_eq_ok.mp h
    obtain ⟨⟨head, _⟩, _, h⟩ := Except.bind_eq_ok.mp h
    obtain ⟨⟨⟨total, tail⟩, _⟩, _, h⟩ := Except.bind_eq_ok.mp h
    cases h
    rfl

theorem atom_shape_of_evaluate {base : Derivation (.atom grammar isNumber)}
    (h : base.evaluate setting () depth numbering = .ok (tree, after)) :
    decide (tree.root.shape = .number) = isNumber := by
  cases base with
  | name token =>
    rw [namedNode_shape h]
    rfl
  | literal token =>
    obtain ⟨number, read, h⟩ := Except.bind_eq_ok.mp h
    cases h
    rw [literalNode_shape read]
    rfl
  | parenthesized opening inner closing =>
    rw [expression_shape_of_evaluate h]
    rfl
  | vector =>
    obtain ⟨⟨first, _⟩, _, h⟩ := Except.bind_eq_ok.mp h
    obtain ⟨⟨second, _⟩, _, h⟩ := Except.bind_eq_ok.mp h
    obtain ⟨product, _, h⟩ := Except.bind_eq_ok.mp h
    cases h
    rfl

theorem factor_shape_of_evaluate {factor : Derivation (.factor grammar isNumber)}
    (h : factor.evaluate setting () depth numbering = .ok (tree, after)) :
    tree.root.shape = .factor := by
  cases factor with
  | factor base =>
    obtain ⟨_, _, h⟩ := Except.bind_eq_ok.mp h
    cases h
    rfl
  | raised base sign exponent =>
    obtain ⟨_, _, h⟩ := Except.bind_eq_ok.mp h
    obtain ⟨_, _, h⟩ := Except.bind_eq_ok.mp h
    obtain ⟨_, _, h⟩ := Except.bind_eq_ok.mp h
    cases h
    rfl

/-- A factor is evaluated to a literal exactly when it is derived as one. -/
theorem isLiteral_of_evaluate {factor : Derivation (.factor grammar isNumber)}
    (h : factor.evaluate setting () depth numbering = .ok (tree, after)) :
    isLiteral tree = isNumber := by
  cases factor with
  | factor base =>
    obtain ⟨⟨atom, _⟩, read, h⟩ := Except.bind_eq_ok.mp h
    cases h
    exact atom_shape_of_evaluate read
  | raised base sign exponent =>
    obtain ⟨⟨atom, _⟩, _, h⟩ := Except.bind_eq_ok.mp h
    obtain ⟨⟨power, _⟩, _, h⟩ := Except.bind_eq_ok.mp h
    obtain ⟨raised, _, h⟩ := Except.bind_eq_ok.mp h
    cases h
    rfl

end Shape

end Derivation

end Dimensional
