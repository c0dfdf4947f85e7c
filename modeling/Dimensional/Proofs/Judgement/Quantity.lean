import Dimensional.Proofs.Judgement.Numeric
import Dimensional.Proofs.Quantity.Worth

/-! Quantities are evaluated exactly when they are judged to have dimensions, and then to those. -/

namespace Dimensional

open Dimensional.Parser

/-- An evaluation succeeds when its judgement is defined and nothing is refused, with values that
belong together, and fails for the dimensions otherwise. -/
def Settles (x : Except ParseError (α × Numbering)) (refused : Bool) (judged : Option β)
    (relation : α → β → Prop) : Prop :=
  (∀ b, judged = some b → refused = false → ∃ a after, x = .ok (a, after) ∧ relation a b) ∧
    (judged = none ∨ refused = true → ∃ error location, x = .error (.algebra error location))

namespace Settles

variable {x : Except ParseError (α × Numbering)} {refused later : Bool} {judged : Option β}
  {relation : α → β → Prop} {relation' : γ → δ → Prop}
  {f : α × Numbering → Except ParseError (γ × Numbering)} {g : β → Option δ}

theorem ok {a : α} {b : β} {numbering : Numbering} (h : relation a b) :
    Settles (.ok (a, numbering)) false (some b) relation := by
  constructor
  · intro b same _
    cases same
    exact ⟨a, numbering, rfl, h⟩
  · rintro (none | refused)
    · cases none
    · cases refused

theorem error {error : AlgebraError} {location : Location} (h : judged = none ∨ refused = true) :
    Settles (.error (.algebra error location)) refused judged relation := by
  constructor
  · intro b some permitted
    rcases h with none | refuses
    · rw [none] at some
      cases some
    · rw [permitted] at refuses
      cases refuses
  · intro _
    exact ⟨error, location, rfl⟩

/-- One evaluation after another. -/
theorem bind (first : Settles x refused judged relation)
    (next : ∀ a b numbering, relation a b → Settles (f (a, numbering)) later (g b) relation') :
    Settles (x >>= f) (refused || later) (judged >>= g) relation' := by
  -- What fails first decides, whatever would come after it.
  by_cases fails : judged = none ∨ refused = true
  · obtain ⟨reason, location, rfl⟩ := first.2 fails
    refine .error ?_
    rcases fails with rfl | rfl
    · exact .inl rfl
    · exact .inr rfl
  · obtain ⟨some, permitted⟩ := not_or.mp fails
    obtain ⟨b, rfl⟩ := Option.ne_none_iff_exists'.mp some
    obtain rfl := Bool.eq_false_iff.mpr permitted
    obtain ⟨a, numbering, rfl, related⟩ := first.1 b rfl rfl
    rw [Bool.false_or]
    exact next a b numbering related

/-- An operation on what was evaluated. -/
theorem operate {x : Except AlgebraError α} {location : Location}
    {f : α → Except ParseError (γ × Numbering)} (meets : Meets x judged relation)
    (next : ∀ a b, relation a b → Settles (f a) refused (g b) relation') :
    Settles (locate location x >>= f) refused (judged >>= g) relation' := by
  cases judged with
  | none =>
    obtain ⟨reason, rfl⟩ := meets.2 rfl
    exact .error (.inl rfl)
  | some b =>
    obtain ⟨a, rfl, related⟩ := meets.1 b rfl
    exact next a b related

/-- An operation that a node is put around. -/
theorem conclude {x : Except AlgebraError α} {location : Location} {numbering : Numbering}
    {relation' : γ → β → Prop} {f : α → γ} (meets : Meets x judged relation)
    (h : ∀ a b, relation a b → relation' (f a) b) :
    Settles (locate location x >>= fun a => .ok (f a, numbering)) false judged relation' := by
  cases judged with
  | none =>
    obtain ⟨reason, rfl⟩ := meets.2 rfl
    exact .error (.inl rfl)
  | some b =>
    obtain ⟨a, rfl, related⟩ := meets.1 b rfl
    exact .ok (h a b related)

/-- A node around what was evaluated. -/
theorem map {relation' : γ → β → Prop} (settles : Settles x refused judged relation)
    (h : ∀ a b numbering, relation a b → ∃ c, f (a, numbering) = .ok (c, numbering) ∧
      relation' c b) :
    Settles (x >>= f) refused judged relation' := by
  constructor
  · intro b some permitted
    obtain ⟨a, numbering, rfl, related⟩ := settles.1 b some permitted
    obtain ⟨c, reached, kept⟩ := h a b numbering related
    exact ⟨c, numbering, reached, kept⟩
  · intro fails
    obtain ⟨reason, location, rfl⟩ := settles.2 fails
    exact ⟨reason, location, rfl⟩

end Settles

/-- All names stand for quantities and dimensions over a table. -/
structure Vocabulary.IsOver (table : Table) (vocabulary : Vocabulary) : Prop where
  quantity : ∀ name quantity, vocabulary.resolve? name = some quantity → quantity.IsOver table
  dimension : ∀ name dimension, vocabulary.dimension? name = some dimension →
    dimension ∈ table.dimensions

/-- What the operands before a rest come to has a measure and a value. -/
def Category.BeginsWith (table : Table) :
    (category : Category) → category.Carried → category.CarriedMeasure → category.CarriedScalar →
      Prop
  | .sumRest _, total, measure, scalar => Worth.Has table total measure scalar
  | .productRest _ _, chain, measure, scalar => Chain.Has table chain measure scalar
  | .expression _, _, _, _ | .term _, _, _, _ | .factor _ _, _, _, _ | .atom _ _, _, _, _
  | .exponent, _, _, _ => True

/-- Evaluation gives a quantity with a measure and a value. -/
def Category.Has (table : Table) :
    (category : Category) → category.Evaluated → Measure → Scalar → Prop
  | .sumRest _, evaluated, measure, scalar => Worth.Has table evaluated.1 measure scalar
  | .productRest _ _, evaluated, measure, scalar => Chain.Has table evaluated.1 measure scalar
  | .expression _, tree, measure, scalar | .term _, tree, measure, scalar
  | .factor _ _, tree, measure, scalar | .atom _ _, tree, measure, scalar
  | .exponent, tree, measure, scalar => Worth.Has table tree.root.worth measure scalar

/-- Wherever a quantity stands, it is evaluated as it is judged. -/
def Derivation.JudgedRightly (table : Table) (setting : Setting) (derivation : Derivation category) :
    Prop :=
  ∀ carried measure scalar depth numbering,
    category.BeginsWith table carried measure scalar → setting.Admits (depth + derivation.nesting) →
    Readable derivation.tokens → derivation.Resolves setting.vocabulary →
    Settles (derivation.evaluate setting carried depth numbering)
      (derivation.raisesZeroToZero setting.vocabulary) (derivation.judge setting.vocabulary measure)
      (fun evaluated measure => category.Has table evaluated measure
        (derivation.scalar setting.vocabulary scalar))

namespace Derivation.JudgedRightly

variable {table : Table} {setting : Setting}

theorem expression {first : Derivation (.term .quantity)} {rest : Derivation (.sumRest .quantity)}
    (ofFirst : first.JudgedRightly table setting) (ofRest : rest.JudgedRightly table setting) :
    (Derivation.expression first rest).JudgedRightly table setting := by
  intro _ _ _ depth numbering _ admits readable resolves
  have allowed : allowNesting setting.limit? depth = .ok () :=
    allowNesting_eq_ok (admits.mono (by rw [nesting]; omega))
  rw [evaluate, allowed, Except.ok_bind]
  refine (ofFirst () () () (depth + 1) numbering trivial (admits.mono (by rw [nesting]; omega))
    (readable.subset (List.subset_append_left _ _)) resolves.1).bind ?_
  intro head measure between has
  refine (ofRest head.root.worth measure _ (depth + 1) between has
    (admits.mono (by rw [nesting]; omega)) (readable.subset (List.subset_append_right _ _))
    resolves.2).map ?_
  intro total measure after has
  exact ⟨_, rfl, has⟩

theorem lastTerm : (Derivation.lastTerm : Derivation (.sumRest grammar)).JudgedRightly table
    setting := by
  intro total measure scalar _ _ begins _ _ _
  exact .ok begins

theorem sum (numbered : table.Numbered) {op : AddOp} {sign : Terminal op.kind}
    {next : Derivation (.term .quantity)} {rest : Derivation (.sumRest .quantity)}
    (ofNext : next.JudgedRightly table setting) (ofRest : rest.JudgedRightly table setting) :
    (Derivation.sum op sign next rest).JudgedRightly table setting := by
  intro total measure scalar depth numbering begins admits readable resolves
  rw [evaluate, judge, raisesZeroToZero]
  refine (ofNext () () () depth numbering trivial (admits.mono (by rw [nesting]; omega))
    (readable.subset (by simp)) resolves.1).bind ?_
  intro operand other between has
  refine Settles.operate (Worth.add_meets numbered op begins has) ?_
  intro total measure has
  refine (ofRest total measure _ depth between has (admits.mono (by rw [nesting]; omega))
    (readable.subset (by simp)) resolves.2).map ?_
  intro total measure after has
  exact ⟨_, rfl, has⟩

/-- A term with its sign. What stands around its factors does not matter. -/
theorem signed (numbered : table.Numbered) (negated : Bool)
    {first : Derivation (.factor .quantity isNumber)}
    {rest : Derivation (.productRest .quantity isNumber)}
    (ofFirst : first.JudgedRightly table setting) (ofRest : rest.JudgedRightly table setting)
    {depth : Nat} {numbering : Numbering}
    (admits : setting.Admits (depth + max first.nesting rest.nesting))
    (readable : Readable (first.tokens ++ rest.tokens))
    (resolves : first.Resolves setting.vocabulary ∧ rest.Resolves setting.vocabulary)
    (node : Expression → Chain → List Expression → Expression)
    (h : ∀ head chain tail, (node head chain tail).root.worth = chain.finish) :
    Settles
      (do
        let (head, numbering) ← first.evaluate setting () depth numbering
        let chain ← locate head.root.location (Chain.ofFactor .quantity negated head.root.worth)
        let ((chain, tail), numbering) ← rest.evaluate setting chain depth numbering
        .ok (node head chain tail, numbering))
      (first.raisesZeroToZero setting.vocabulary || rest.raisesZeroToZero setting.vocabulary)
      (do rest.judge setting.vocabulary (← first.judge setting.vocabulary ()))
      (fun tree measure => Worth.Has table tree.root.worth measure
        (rest.scalar setting.vocabulary
          ((first.scalar setting.vocabulary ()).signed negated)).finish) := by
  refine (ofFirst () () () depth numbering trivial (admits.mono (by omega))
    (readable.subset (by simp)) resolves.1).bind ?_
  intro head measure between has
  refine Settles.operate (Chain.ofFactor_meets numbered negated has) ?_
  intro chain measure has
  refine (ofRest chain measure _ depth between has (admits.mono (by omega))
    (readable.subset (by simp)) resolves.2).map ?_
  intro total measure after has
  refine ⟨_, rfl, ?_⟩
  rw [h]
  exact Chain.Has.finish has

theorem term (numbered : table.Numbered) {first : Derivation (.factor .quantity isNumber)}
    {rest : Derivation (.productRest .quantity isNumber)}
    (ofFirst : first.JudgedRightly table setting) (ofRest : rest.JudgedRightly table setting) :
    (Derivation.term first rest).JudgedRightly table setting := by
  intro _ _ _ depth numbering _ admits readable resolves
  exact signed numbered false ofFirst ofRest admits readable resolves
    (fun head chain tail => .node {
      shape := .term, location := first.location, worth := chain.finish } (head :: tail))
    fun _ _ _ => rfl

theorem negated (numbered : table.Numbered) {minus : Terminal .minus}
    {first : Derivation (.factor .quantity isNumber)}
    {rest : Derivation (.productRest .quantity isNumber)}
    (ofFirst : first.JudgedRightly table setting) (ofRest : rest.JudgedRightly table setting) :
    (Derivation.negated minus first rest).JudgedRightly table setting := by
  intro _ _ _ depth numbering _ admits readable resolves
  exact signed numbered true ofFirst ofRest admits (readable.subset (by simp)) resolves
    (fun head chain tail => .node {
      shape := .term, location := minus.val.location, worth := chain.finish }
      (signLeaf .negation minus.val :: head :: tail))
    fun _ _ _ => rfl

theorem lastFactor : (Derivation.lastFactor :
    Derivation (.productRest grammar afterLiteral)).JudgedRightly table setting := by
  intro chain measure scalar _ _ begins _ _ _
  exact .ok begins

/-- A product with a sign or without one. -/
theorem multiplied (numbered : table.Numbered) (op : MulOp) (place : Location) (mark : Token)
    {next : Derivation (.factor .quantity isNumber)}
    {rest : Derivation (.productRest .quantity isNumber)}
    (ofNext : next.JudgedRightly table setting) (ofRest : rest.JudgedRightly table setting)
    {chain : Chain} {measure : Measure} {scalar : Scalar} (begins : chain.Has table measure scalar)
    {depth : Nat} {numbering : Numbering}
    (admits : setting.Admits (depth + max next.nesting rest.nesting))
    (readable : Readable (next.tokens ++ rest.tokens))
    (resolves : next.Resolves setting.vocabulary ∧ rest.Resolves setting.vocabulary) :
    Settles
      (do
        let (operand, numbering) ← next.evaluate setting () depth numbering
        let chain ← locate place (chain.apply op operand.root.worth)
        let ((chain, tail), numbering) ← rest.evaluate setting chain depth numbering
        .ok ((chain, signLeaf (.product op) mark :: operand :: tail), numbering))
      (next.raisesZeroToZero setting.vocabulary || rest.raisesZeroToZero setting.vocabulary)
      (do
        rest.judge setting.vocabulary
          (← measure.multiply op (← next.judge setting.vocabulary ())))
      (fun evaluated measure => Chain.Has table evaluated.1 measure
        (rest.scalar setting.vocabulary
          (scalar.multiply op (next.scalar setting.vocabulary ())))) := by
  refine (ofNext () () () depth numbering trivial (admits.mono (by omega))
    (readable.subset (by simp)) resolves.1).bind ?_
  intro operand other between has
  refine Settles.operate (Chain.apply_meets numbered op begins has) ?_
  intro chain measure has
  refine (ofRest chain measure _ depth between has (admits.mono (by omega))
    (readable.subset (by simp)) resolves.2).map ?_
  intro total measure after has
  exact ⟨_, rfl, has⟩

theorem product (numbered : table.Numbered) {op : MulOp} {sign : Terminal op.kind}
    {next : Derivation (.factor .quantity isNumber)}
    {rest : Derivation (.productRest .quantity isNumber)}
    (ofNext : next.JudgedRightly table setting) (ofRest : rest.JudgedRightly table setting) :
    (Derivation.product op sign next rest :
      Derivation (.productRest .quantity afterLiteral)).JudgedRightly table setting := by
  intro chain measure scalar depth numbering begins admits readable resolves
  exact multiplied numbered op sign.val.location sign.val ofNext ofRest begins admits
    (readable.subset (by simp)) resolves

theorem silent (numbered : table.Numbered) {next : Derivation (.factor .quantity false)}
    {rest : Derivation (.productRest .quantity false)}
    (ofNext : next.JudgedRightly table setting) (ofRest : rest.JudgedRightly table setting) :
    (Derivation.silent next rest).JudgedRightly table setting := by
  intro chain measure scalar depth numbering begins admits readable resolves
  exact multiplied numbered .times next.location next.leading ofNext ofRest begins admits readable
    resolves

theorem factor {base : Derivation (.atom .quantity isNumber)}
    (ofBase : base.JudgedRightly table setting) :
    (Derivation.factor base).JudgedRightly table setting := by
  intro _ _ _ depth numbering _ admits readable resolves
  refine (ofBase () () () depth numbering trivial admits readable resolves).map ?_
  intro atom measure after has
  exact ⟨_, rfl, Worth.Has.ofAtom has⟩

/-- Only where zero is raised to zero do dimensions not decide. -/
theorem raised (numbered : table.Numbered) {base : Derivation (.atom .quantity isNumber)}
    {sign : Terminal .power} {exponent : Derivation .exponent}
    (ofBase : base.JudgedRightly table setting) :
    (Derivation.raised base sign exponent).JudgedRightly table setting := by
  intro _ _ _ depth numbering _ admits readable resolves
  obtain ⟨times, counted⟩ := Option.isSome_iff_exists.mp resolves.2
  rw [evaluate, judge, raisesZeroToZero, scalar, counted]
  refine (ofBase () () () depth numbering trivial (admits.mono (by rw [nesting]; omega))
    (readable.subset (by simp)) resolves.1).bind ?_
  intro atom measure between has
  -- Exponents are numeric, so that they do not depend on what the base is worth.
  obtain ⟨power, after, read, worth⟩ := exponent.folds rfl () () times depth between trivial
    (admits.mono (by rw [nesting]; omega)) counted
  have ofPower : power.root.value = times := congrArg Worth.value worth
  have ofAtom := Worth.Has.ofAtom has
  dsimp only
  rw [read, Except.ok_bind]
  dsimp only
  rw [ofPower, Option.getD_some]
  cases refused : (base.scalar setting.vocabulary ()).isZero && times == 0.0 with
  | false =>
    exact Settles.conclude (Worth.power_meets numbered ofAtom refused) fun _ _ has => has
  | true =>
    rw [Worth.power_zero_to_the_zero ofAtom refused]
    exact .error (.inr rfl)

theorem name (isOver : setting.vocabulary.IsOver table) {token : Terminal .identifier} :
    (Derivation.name token : Derivation (.atom .quantity false)).JudgedRightly table setting := by
  intro _ _ _ depth numbering _ _ _ resolves
  obtain ⟨quantity, found⟩ := Option.isSome_iff_exists.mp resolves
  have has : quantity.Has table quantity.measure quantity.scalar :=
    ⟨isOver.quantity _ _ found, rfl, rfl⟩
  rw [judge, scalar, found]
  change Settles (namedNode setting.vocabulary .quantity token.val numbering) _ _ _
  unfold namedNode
  rw [found]
  dsimp only
  split
  · exact .ok ⟨quantity, rfl, has⟩
  · exact .ok ⟨quantity, rfl, has⟩

theorem literal {token : Terminal .number} :
    (Derivation.literal token : Derivation (.atom .quantity true)).JudgedRightly table setting := by
  intro _ _ _ depth numbering _ _ readable _
  obtain ⟨value, found⟩ := Option.isSome_iff_exists.mp
    (readable token.val (List.mem_singleton_self _) token.property)
  obtain ⟨tree, read, worth⟩ := literalNode_of_read? found
  have has : (Quantity.constant value).Has table .one (.constant value) :=
    ⟨⟨Monomial.isOver_one, Monomial.isOver_one⟩, rfl, rfl⟩
  rw [evaluate, read, scalar, found]
  exact .ok ⟨_, worth, has⟩

theorem parenthesized {opening : Terminal .openParen} {inner : Derivation (.expression .quantity)}
    {closing : Terminal .closeParen} (ofInner : inner.JudgedRightly table setting) :
    (Derivation.parenthesized opening inner closing).JudgedRightly table setting := by
  intro _ _ _ depth numbering _ admits readable resolves
  exact ofInner () () () depth numbering trivial admits (readable.subset (by simp))
    resolves

theorem vector (numbered : table.Numbered) (isOver : setting.vocabulary.IsOver table) {op : VectorOp}
    {keyword : Terminal op.kind} {opening : Terminal .openParen}
    {left : Derivation (.expression .quantity)} {comma : Terminal .comma}
    {right : Derivation (.expression .quantity)} {closing : Terminal .closeParen}
    (ofLeft : left.JudgedRightly table setting) (ofRight : right.JudgedRightly table setting) :
    (Derivation.vector op keyword opening left comma right closing).JudgedRightly table
      setting := by
  intro _ _ _ depth numbering _ admits readable resolves
  rw [evaluate, judge, raisesZeroToZero, ← Bool.or_false (right.raisesZeroToZero _)]
  refine (ofLeft () () () depth numbering trivial (admits.mono (by rw [nesting]; omega))
    (readable.subset fun token member => by simp [member]) resolves.1).bind ?_
  intro first measure between has
  refine (ofRight () () () depth between trivial (admits.mono (by rw [nesting]; omega))
    (readable.subset fun token member => by simp [member]) resolves.2).bind ?_
  intro second other after ofSecond
  obtain ⟨leftQuantity, leftWorth, leftHas⟩ := has
  obtain ⟨rightQuantity, rightWorth, rightHas⟩ := ofSecond
  dsimp only
  rw [leftWorth, rightWorth]
  exact Settles.conclude (Quantity.vectorProduct_meets numbered op
    (fun angle found => isOver.dimension _ _ found) leftHas rightHas)
    fun product _ has => ⟨product, rfl, has⟩

end Derivation.JudgedRightly

/-- Quantities are evaluated exactly when they are judged to have dimensions, wherever they stand. -/
theorem Derivation.judgedRightly {table : Table} {setting : Setting} (numbered : table.Numbered)
    (isOver : setting.vocabulary.IsOver table) (derivation : Derivation category)
    (quantity : category.grammar = .quantity) : derivation.JudgedRightly table setting := by
  induction derivation with
  | expression first rest ihFirst ihRest =>
    cases quantity
    exact .expression (ihFirst rfl) (ihRest rfl)
  | lastTerm => exact .lastTerm
  | sum op sign next rest ihNext ihRest =>
    cases quantity
    exact .sum numbered (ihNext rfl) (ihRest rfl)
  | term first rest ihFirst ihRest =>
    cases quantity
    exact .term numbered (ihFirst rfl) (ihRest rfl)
  | negated minus first rest ihFirst ihRest =>
    cases quantity
    exact .negated numbered (ihFirst rfl) (ihRest rfl)
  | lastFactor => exact .lastFactor
  | product op sign next rest ihNext ihRest =>
    cases quantity
    exact .product numbered (ihNext rfl) (ihRest rfl)
  | silent next rest ihNext ihRest => exact .silent numbered (ihNext rfl) (ihRest rfl)
  | factor base ih =>
    cases quantity
    exact .factor (ih rfl)
  | raised base sign exponent ihBase =>
    cases quantity
    exact .raised numbered (ihBase rfl)
  | name token =>
    cases quantity
    exact .name isOver
  | literal token =>
    cases quantity
    exact .literal
  | parenthesized opening inner closing ih =>
    cases quantity
    exact .parenthesized (ih rfl)
  | vector op keyword opening left comma right closing ihLeft ihRight =>
    exact .vector numbered isOver (ihLeft rfl) (ihRight rfl)
  | integer | negativeInteger | grouped => cases quantity

end Dimensional
