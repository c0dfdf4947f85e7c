import Dimensional.Proofs.Parser.Whole
import Dimensional.Proofs.Quantity.Built
import Dimensional.Proofs.Quantity.Worth
import Dimensional.Proofs.Tree

/-! What the nodes of a tree are worth, told from below: every node from the nodes it holds and every
leaf from its token. -/

namespace Dimensional

open Dimensional.Parser

/-- A bound quantity comes before a dimension of the same name. -/
inductive Vocabulary.Means (vocabulary : Vocabulary) (name : String) : Quantity → Prop where
  | bound (h : vocabulary.quantity? name = some quantity) : Means vocabulary name quantity
  | dimension (free : vocabulary.quantity? name = none)
      (h : vocabulary.dimension? name = some dimension) :
      Means vocabulary name (.ofDimension dimension)

/-- Operators and the operands behind them. -/
def operands? (operator? : Shape → Option α) : List Expression → Option (List (α × Expression))
  | [] => some []
  | [_] => none
  | sign :: next :: rest =>
    match operator? sign.root.shape, operands? operator? rest with
    | some op, some others => some ((op, next) :: others)
    | _, _ => none

theorem operands?_cons {operator? : Shape → Option α} {sign next : Expression}
    {rest : List Expression} {op : α} {others : List (α × Expression)}
    (isSign : operator? sign.root.shape = some op) (paired : operands? operator? rest = some others) :
    operands? operator? (sign :: next :: rest) = some ((op, next) :: others) := by
  rw [operands?, isSign, paired]

def Shape.addOp? : Shape → Option AddOp
  | .sum op => some op
  | _ => none

def Shape.mulOp? : Shape → Option MulOp
  | .product op => some op
  | _ => none

/-- Signs stand before operands and between them. -/
def Shape.isSign : Shape → Bool
  | .negation | .sum _ | .product _ | .power => true
  | .expression _ | .term | .factor | .integer | .vector _ | .identifier | .number => false

/-- Whether a term starts with a minus, and what stands behind it. -/
def splitSign : List Expression → Bool × List Expression
  | [] => (false, [])
  | first :: rest => if first.root.shape = .negation then (true, rest) else (false, first :: rest)

namespace Expression

/-- The quantity of a node. -/
def model (tree : Expression) : Quantity := tree.root.worth.toQuantity

def value (tree : Expression) : Float := tree.root.worth.value

/-- Terms are added from left to right. -/
def sumOfQuantities (first : Expression) (rest : List (AddOp × Expression)) :
    Except AlgebraError Quantity :=
  rest.foldlM (fun sum next => sum.add next.1 next.2.model) first.model

def sumOfNumbers (first : Expression) (rest : List (AddOp × Expression)) : Float :=
  rest.foldl (fun sum next => next.1.operation sum next.2.value) first.value

/-- A term takes in one factor after the other. -/
def productOfQuantities (negated : Bool) (first : Expression) (rest : List (MulOp × Expression)) :
    Except AlgebraError Quantity := do
  let term ← Term.ofFactor negated first.model
  let term ← term.applyAll (rest.map fun next => (next.1, next.2.model))
  .ok term.finish

def productOfNumbers (negated : Bool) (first : Expression) (rest : List (MulOp × Expression)) :
    Float :=
  rest.foldl (fun product next => skippingZero next.1.operation product next.2.value)
    ((if negated then -1.0 else 1.0) * first.value)

end Expression

/-- What a node is worth, given its children and the grammar of the expression around it. Worths
that are numbers are no quantities. -/
def Node.Carries (vocabulary : Vocabulary) (tokens : List Token) (grammar : Grammar) (node : Node)
    (children : List Expression) : Prop :=
  match node.shape with
  | .identifier => children = [] ∧ ∃ token ∈ tokens, token.kind = .identifier ∧
      token.location = node.location ∧ node.identifier? = some token.text ∧
      ∃ quantity, vocabulary.Means token.text quantity ∧ node.worth = .quantity quantity
  | .number => children = [] ∧ ∃ token ∈ tokens, token.kind = .number ∧
      token.location = node.location ∧
      ∃ value, Number.read? token.text = some value ∧ node.worth = .quantity (.constant value)
  | .integer => ∃ sign number, splitSign children = (sign, [number]) ∧
      node.worth = .number ((if sign then -1.0 else 1.0) * number.value)
  | .factor =>
    (∃ atom, children = [atom] ∧
      match grammar with
      | .quantity => node.worth = .quantity atom.model
      | .numeric => node.worth = .number atom.value) ∨
    (∃ atom sign exponent, children = [atom, sign, exponent] ∧ sign.root.shape = .power ∧
      match grammar with
      | .quantity => ∃ quantity, atom.model.power exponent.value = .ok quantity ∧
          node.worth = .quantity quantity
      | .numeric => node.worth = .number (Number.power atom.value exponent.value))
  | .term => ∃ negated first rest operands, splitSign children = (negated, first :: rest) ∧
      operands? Shape.mulOp? rest = some operands ∧
      match grammar with
      | .quantity => ∃ quantity, first.productOfQuantities negated operands = .ok quantity ∧
          node.worth = .quantity quantity
      | .numeric => node.worth = .number (first.productOfNumbers negated operands)
  | .expression inner => ∃ first rest operands, children = first :: rest ∧
      operands? Shape.addOp? rest = some operands ∧
      match inner with
      | .quantity => ∃ quantity, first.sumOfQuantities operands = .ok quantity ∧
          node.worth = .quantity quantity
      | .numeric => node.worth = .number (first.sumOfNumbers operands)
  | .vector op => ∃ left right quantity, children = [left, right] ∧
      Quantity.vectorProduct op left.model right.model
        (vocabulary.dimension? Quantity.angleKey) = .ok quantity ∧
      node.worth = .quantity quantity
  | .negation | .sum _ | .product _ | .power => children = [] ∧ node.worth = .number 0.0

/-- The value of a node is that of its quantity, if it has one. -/
def Worth.Agrees (worth : Worth) : Prop :=
  ∀ quantity ∈ worth.quantity?, worth.value = quantity.value

namespace Worth

theorem agrees_number {value : Float} : (number value).Agrees := nofun

theorem agrees_quantity {annotated : Quantity} : (quantity annotated).Agrees := by
  rintro _ ⟨⟩
  rfl

theorem Agrees.eq_quantity {worth : Worth} {annotated : Quantity} (agrees : worth.Agrees)
    (holds : worth.quantity? = some annotated) : worth = .quantity annotated := by
  obtain ⟨value, quantity?⟩ := worth
  obtain rfl : quantity? = some annotated := holds
  exact congrArg (Worth.mk · _) (agrees annotated rfl)

end Worth

/-- Whatever a node carries is a bare number or a quantity with its own value. -/
theorem Node.Carries.agrees {vocabulary : Vocabulary} {tokens : List Token} {grammar : Grammar}
    {node : Node} {children : List Expression}
    (carries : node.Carries vocabulary tokens grammar children) : node.worth.Agrees := by
  have ofNumber {value : Float} (worth : node.worth = .number value) : node.worth.Agrees :=
    worth ▸ Worth.agrees_number
  have ofQuantity {quantity : Quantity} (worth : node.worth = .quantity quantity) :
      node.worth.Agrees := worth ▸ Worth.agrees_quantity
  cases shape : node.shape <;> simp only [Node.Carries, shape] at carries
  case identifier =>
    obtain ⟨_, _, _, _, _, _, _, _, worth⟩ := carries
    exact ofQuantity worth
  case number =>
    obtain ⟨_, _, _, _, _, _, _, worth⟩ := carries
    exact ofQuantity worth
  case factor =>
    cases grammar with
    | numeric => rcases carries with ⟨_, _, worth⟩ | ⟨_, _, _, _, _, worth⟩ <;> exact ofNumber worth
    | quantity =>
      rcases carries with ⟨_, _, worth⟩ | ⟨_, _, _, _, _, _, _, worth⟩ <;> exact ofQuantity worth
  case term =>
    cases grammar with
    | numeric =>
      obtain ⟨_, _, _, _, _, _, worth⟩ := carries
      exact ofNumber worth
    | quantity =>
      obtain ⟨_, _, _, _, _, _, _, _, worth⟩ := carries
      exact ofQuantity worth
  case expression inner =>
    cases inner with
    | numeric =>
      obtain ⟨_, _, _, _, _, worth⟩ := carries
      exact ofNumber worth
    | quantity =>
      obtain ⟨_, _, _, _, _, _, _, worth⟩ := carries
      exact ofQuantity worth
  case vector =>
    obtain ⟨_, _, _, _, _, worth⟩ := carries
    exact ofQuantity worth
  case integer =>
    obtain ⟨_, _, _, worth⟩ := carries
    exact ofNumber worth
  all_goals exact ofNumber carries.2

/-- The grammar of the parts of a node. -/
def Shape.grammarBelow : Shape → Grammar → Grammar
  | .expression inner, _ => inner
  | _, outer => outer

/-- Every node of a tree carries what its children are worth together. -/
inductive Annotated (vocabulary : Vocabulary) (tokens : List Token) : Grammar → Expression → Prop where
  | node (carries : root.Carries vocabulary tokens grammar children)
      (below : ∀ child ∈ children, Annotated vocabulary tokens (root.shape.grammarBelow grammar) child) :
      Annotated vocabulary tokens grammar (.node root children)

/-- A worth that belongs to its grammar. -/
def Worth.Suits : Grammar → Worth → Prop
  | .quantity, worth => ∃ quantity, worth = .quantity quantity
  | .numeric, worth => ∃ value, worth = .number value

/-- What is added to the operands before it. -/
def Worth.AddsUp (grammar : Grammar) (sum : Worth) (operands : List (AddOp × Expression))
    (total : Worth) : Prop :=
  match grammar with
  | .quantity => ∀ quantity, sum = .quantity quantity → ∃ result,
      operands.foldlM (fun sum next => sum.add next.1 next.2.model) quantity = .ok result ∧
        total = .quantity result
  | .numeric => ∀ value, sum = .number value →
      total = .number (operands.foldl (fun sum next => next.1.operation sum next.2.value) value)

/-- What the operands before it are multiplied by. -/
def Chain.AddsUp (grammar : Grammar) (chain : Chain) (operands : List (MulOp × Expression))
    (total : Chain) : Prop :=
  match grammar with
  | .quantity => ∀ term, chain = .quantity term → ∃ result,
      term.applyAll (operands.map fun next => (next.1, next.2.model)) = .ok result ∧
        total = .quantity result
  | .numeric => ∀ value, chain = .number value →
      total = .number (operands.foldl
        (fun product next => skippingZero next.1.operation product next.2.value) value)

/-- What evaluation gives is annotated: trees, and rests along with what they add to the operands
before them. -/
def Category.Annotated (vocabulary : Vocabulary) (tokens : List Token) :
    (category : Category) → category.Carried → category.Evaluated → Prop
  | .term grammar, _, tree =>
    Dimensional.Annotated vocabulary tokens grammar tree ∧ Worth.Suits grammar tree.root.worth
  | .factor grammar _, _, tree | .atom grammar _, _, tree =>
    Dimensional.Annotated vocabulary tokens grammar tree
  | .expression _, _, tree | .exponent, _, tree =>
    ∀ grammar, Dimensional.Annotated vocabulary tokens grammar tree
  | .sumRest grammar, sum, evaluated =>
    (∀ tree ∈ evaluated.2, Dimensional.Annotated vocabulary tokens grammar tree) ∧
    ∃ operands, operands? Shape.addOp? evaluated.2 = some operands ∧
      Worth.AddsUp grammar sum operands evaluated.1
  | .productRest grammar _, chain, evaluated =>
    (∀ tree ∈ evaluated.2, Dimensional.Annotated vocabulary tokens grammar tree) ∧
    ∃ operands, operands? Shape.mulOp? evaluated.2 = some operands ∧
      Chain.AddsUp grammar chain operands evaluated.1

section Operands

variable {grammar : Grammar}

theorem Worth.AddsUp.nil {sum : Worth} : sum.AddsUp grammar [] sum := by
  cases grammar with
  | numeric =>
    rintro value rfl
    rfl
  | quantity =>
    rintro quantity rfl
    exact ⟨quantity, rfl, rfl⟩

theorem Worth.AddsUp.cons {sum next total : Worth} {op : AddOp} {operand : Expression}
    {operands : List (AddOp × Expression)} (added : sum.add op operand.root.worth = .ok next)
    (rest : next.AddsUp grammar operands total) :
    sum.AddsUp grammar ((op, operand) :: operands) total := by
  cases grammar with
  | numeric =>
    rintro value rfl
    cases added
    rw [List.foldl_cons, ← op.apply_eq_operation]
    exact rest _ rfl
  | quantity =>
    rintro quantity rfl
    obtain ⟨sum, ofQuantities, rfl⟩ := Except.map_eq_ok.mp added
    obtain ⟨result, folded, same⟩ := rest sum rfl
    refine ⟨result, ?_, same⟩
    rw [List.foldlM_cons]
    exact Except.bind_eq_ok.mpr ⟨sum, ofQuantities, folded⟩

theorem Chain.AddsUp.nil {chain : Chain} : chain.AddsUp grammar [] chain := by
  cases grammar with
  | numeric =>
    rintro value rfl
    rfl
  | quantity =>
    rintro term rfl
    exact ⟨term, rfl, rfl⟩

theorem Chain.AddsUp.cons {chain next total : Chain} {op : MulOp} {operand : Expression}
    {operands : List (MulOp × Expression)} (applied : chain.apply op operand.root.worth = .ok next)
    (rest : next.AddsUp grammar operands total) :
    chain.AddsUp grammar ((op, operand) :: operands) total := by
  cases grammar with
  | numeric =>
    rintro value rfl
    cases applied
    rw [List.foldl_cons, ← op.apply_eq_skippingZero]
    exact rest _ rfl
  | quantity =>
    rintro term rfl
    rw [Chain.apply_quantity] at applied
    obtain ⟨extended, settled, rfl⟩ := Except.map_eq_ok.mp applied
    obtain ⟨result, folded, same⟩ := rest extended rfl
    refine ⟨result, ?_, same⟩
    rw [List.map_cons, Term.applyAll, List.foldlM_cons]
    exact Except.bind_eq_ok.mpr ⟨extended, settled, folded⟩

end Operands

section Leaf

variable {vocabulary : Vocabulary} {tokens : List Token} {grammar : Grammar} {token : Token}
  {tree : Expression} {numbering after : Numbering}

theorem annotated_signLeaf {shape : Shape} (isSign : shape.isSign = true) :
    Annotated vocabulary tokens grammar (signLeaf shape token) := by
  refine .node ?_ nofun
  cases shape with
  | negation | sum | product | power => exact ⟨rfl, rfl⟩
  | expression | term | factor | integer | vector | identifier | number => cases isSign

/-- A sign and its operand before the others. -/
theorem annotated_operand {shape : Shape} {operand : Expression} {others : List Expression}
    (isSign : shape.isSign = true) (ofOperand : Annotated vocabulary tokens grammar operand)
    (ofOthers : ∀ tree ∈ others, Annotated vocabulary tokens grammar tree) :
    ∀ tree ∈ signLeaf shape token :: operand :: others, Annotated vocabulary tokens grammar tree :=
  List.forall_mem_cons.mpr
    ⟨annotated_signLeaf isSign, List.forall_mem_cons.mpr ⟨ofOperand, ofOthers⟩⟩

theorem annotated_literalNode (member : token ∈ tokens) (isNumber : token.kind = .number)
    (h : literalNode token = .ok tree) : Annotated vocabulary tokens grammar tree := by
  unfold literalNode at h
  split at h
  · cases h
  · rename_i value read
    cases h
    exact .node ⟨rfl, token, member, isNumber, rfl, value, read, rfl⟩ nofun

theorem means_of_resolve? {name : String} {quantity : Quantity}
    (h : vocabulary.resolve? name = some quantity) : vocabulary.Means name quantity := by
  unfold Vocabulary.resolve? at h
  split at h
  · rename_i bound
    cases h
    exact .bound bound
  · rename_i free
    obtain ⟨dimension, found, rfl⟩ := Option.map_eq_some_iff.mp h
    exact .dimension free found

theorem annotated_nameNode (member : token ∈ tokens) (isName : token.kind = .identifier)
    {quantity : Quantity} {parameter? : Option Nat}
    (h : vocabulary.resolve? token.text = some quantity) :
    Annotated vocabulary tokens grammar (nameNode token quantity parameter?) :=
  .node ⟨rfl, token, member, isName, rfl, rfl, quantity, means_of_resolve? h, rfl⟩ nofun

theorem annotated_namedNode (member : token ∈ tokens) (isName : token.kind = .identifier)
    {around : Grammar} (h : namedNode vocabulary around token numbering = .ok (tree, after)) :
    Annotated vocabulary tokens grammar tree := by
  unfold namedNode at h
  split at h
  · cases h
  · rename_i quantity found
    split at h
    · cases h
    · split at h
      · cases h
      · cases h
        exact annotated_nameNode member isName found
  · rename_i quantity found
    split at h <;> cases h <;> exact annotated_nameNode member isName found

end Leaf

section Node

variable {vocabulary : Vocabulary} {tokens : List Token} {grammar : Grammar} {location : Location}

/-- An expression is worth what its terms add up to. -/
theorem annotated_expression {first : Expression} {rest : List Expression}
    {operands : List (AddOp × Expression)} {total : Worth}
    (ofFirst : Annotated vocabulary tokens grammar first)
    (suits : first.root.worth.Suits grammar)
    (ofRest : ∀ tree ∈ rest, Annotated vocabulary tokens grammar tree)
    (paired : operands? Shape.addOp? rest = some operands)
    (addsUp : first.root.worth.AddsUp grammar operands total) (around : Grammar) :
    Annotated vocabulary tokens around
      (.node { shape := .expression grammar, location, worth := total } (first :: rest)) := by
  refine .node ⟨first, rest, operands, rfl, paired, ?_⟩ (List.forall_mem_cons.mpr ⟨ofFirst, ofRest⟩)
  cases grammar with
  | numeric =>
    obtain ⟨value, same⟩ := suits
    have number : first.value = value := by rw [Expression.value, same]; rfl
    rw [Expression.sumOfNumbers, number]
    exact addsUp value same
  | quantity =>
    obtain ⟨quantity, same⟩ := suits
    have model : first.model = quantity := by rw [Expression.model, same]; rfl
    obtain ⟨result, folded, rfl⟩ := addsUp quantity same
    refine ⟨result, ?_, rfl⟩
    rw [Expression.sumOfQuantities, model]
    exact folded

/-- A term is worth what its factors come to, with its sign. -/
theorem annotated_term (sign : List Expression) {negated : Bool} {first : Expression}
    {rest : List Expression} {operands : List (MulOp × Expression)} {chain total : Chain}
    (split : splitSign (sign ++ first :: rest) = (negated, first :: rest))
    (ofSign : ∀ tree ∈ sign, Annotated vocabulary tokens grammar tree)
    (ofFirst : Annotated vocabulary tokens grammar first)
    (begun : Chain.ofFactor grammar negated first.root.worth = .ok chain)
    (ofRest : ∀ tree ∈ rest, Annotated vocabulary tokens grammar tree)
    (paired : operands? Shape.mulOp? rest = some operands)
    (addsUp : chain.AddsUp grammar operands total) :
    Annotated vocabulary tokens grammar
        (.node { shape := .term, location, worth := total.finish } (sign ++ first :: rest)) ∧
      total.finish.Suits grammar := by
  have below : ∀ tree ∈ sign ++ first :: rest, Annotated vocabulary tokens grammar tree := by
    intro tree member
    rcases List.mem_append.mp member with before | behind
    · exact ofSign tree before
    · rcases List.mem_cons.mp behind with rfl | later
      · exact ofFirst
      · exact ofRest tree later
  cases grammar with
  | numeric =>
    cases begun
    have same := addsUp _ rfl
    subst same
    exact ⟨.node ⟨negated, first, rest, operands, split, paired, rfl⟩ below, _, rfl⟩
  | quantity =>
    obtain ⟨term, started, rfl⟩ := Except.map_eq_ok.mp begun
    obtain ⟨result, folded, rfl⟩ := addsUp term rfl
    have product : first.productOfQuantities negated operands = .ok result.finish :=
      Except.bind_eq_ok.mpr ⟨term, started, Except.bind_eq_ok.mpr ⟨result, folded, rfl⟩⟩
    exact ⟨.node ⟨negated, first, rest, operands, split, paired, result.finish, product, rfl⟩ below,
      _, rfl⟩

/-- A power is worth what its base and its exponent come to. -/
theorem carries_raised (grammar : Grammar) {atom power : Expression} {raised : Worth} :
    (Worth.ofAtom grammar atom.root.worth).power power.root.value = .ok raised →
      match grammar with
      | .quantity => ∃ quantity, atom.model.power power.value = .ok quantity ∧
          raised = .quantity quantity
      | .numeric => raised = .number (Number.power atom.value power.value) := by
  intro h
  cases grammar with
  | numeric =>
    rw [Worth.ofAtom, Worth.power_number] at h
    split at h
    · cases h
    · cases h
      rfl
  | quantity =>
    obtain ⟨quantity, operated, rfl⟩ := Except.map_eq_ok.mp h
    exact ⟨quantity, operated, rfl⟩

/-- An integer has the value of its digits, with its sign. -/
theorem annotated_integer (sign : List Expression) (negated : Bool) {digits : Expression}
    {scale : Float} (scaled : (if negated then -1.0 else 1.0) = scale)
    (split : splitSign (sign ++ [digits]) = (negated, [digits]))
    (ofSign : ∀ tree ∈ sign, Annotated vocabulary tokens grammar tree)
    (ofDigits : Annotated vocabulary tokens grammar digits) :
    Annotated vocabulary tokens grammar
      (.node { shape := .integer, location, worth := .number (scale * digits.root.value) }
        (sign ++ [digits])) := by
  subst scaled
  refine .node ⟨negated, digits, split, rfl⟩ ?_
  intro tree member
  rcases List.mem_append.mp member with before | last
  · exact ofSign tree before
  · obtain rfl := List.mem_singleton.mp last
    exact ofDigits

end Node

/-- Whatever is evaluated is annotated. -/
theorem Derivation.annotated_of_evaluate {setting : Setting} {source : List Token}
    {derivation : Derivation category} (members : derivation.tokens ⊆ source)
    {carried : category.Carried} {depth : Nat} {numbering after : Numbering}
    {value : category.Evaluated}
    (h : derivation.evaluate setting carried depth numbering = .ok (value, after)) :
    category.Annotated setting.vocabulary source carried value := by
  induction derivation generalizing depth numbering after with
  | expression first rest ihFirst ihRest =>
    obtain ⟨ofFirst, ofRest⟩ := List.append_subset.mp members
    obtain ⟨_, _, h⟩ := Except.bind_eq_ok.mp h
    obtain ⟨⟨head, _⟩, read, h⟩ := Except.bind_eq_ok.mp h
    obtain ⟨⟨⟨total, tail⟩, _⟩, more, h⟩ := Except.bind_eq_ok.mp h
    cases h
    obtain ⟨annotated, suits⟩ := ihFirst ofFirst read
    obtain ⟨others, operands, paired, addsUp⟩ := ihRest ofRest more
    exact annotated_expression annotated suits others paired addsUp
  | lastTerm =>
    cases h
    exact ⟨nofun, [], rfl, .nil⟩
  | sum op sign next rest ihNext ihRest =>
    obtain ⟨ofNext, ofRest⟩ := List.append_subset.mp (List.cons_subset.mp members).2
    obtain ⟨⟨operand, _⟩, read, h⟩ := Except.bind_eq_ok.mp h
    obtain ⟨total, added, h⟩ := Except.bind_eq_ok.mp h
    obtain ⟨⟨⟨total, tail⟩, _⟩, more, h⟩ := Except.bind_eq_ok.mp h
    cases h
    obtain ⟨annotated, _⟩ := ihNext ofNext read
    obtain ⟨others, operands, paired, addsUp⟩ := ihRest ofRest more
    exact ⟨annotated_operand rfl annotated others, (op, operand) :: operands,
      operands?_cons rfl paired, .cons (locate_eq_ok.mp added) addsUp⟩
  | term first rest ihFirst ihRest =>
    obtain ⟨ofFirst, ofRest⟩ := List.append_subset.mp members
    obtain ⟨⟨head, _⟩, read, h⟩ := Except.bind_eq_ok.mp h
    obtain ⟨chain, begun, h⟩ := Except.bind_eq_ok.mp h
    obtain ⟨⟨⟨total, tail⟩, _⟩, more, h⟩ := Except.bind_eq_ok.mp h
    cases h
    obtain ⟨others, operands, paired, addsUp⟩ := ihRest ofRest more
    have unsigned : head.root.shape ≠ .negation := by
      rw [factor_shape_of_evaluate read]
      nofun
    exact annotated_term [] (if_neg unsigned) nofun (ihFirst ofFirst read)
      (locate_eq_ok.mp begun) others paired addsUp
  | negated minus first rest ihFirst ihRest =>
    obtain ⟨ofFirst, ofRest⟩ := List.append_subset.mp (List.cons_subset.mp members).2
    obtain ⟨⟨head, _⟩, read, h⟩ := Except.bind_eq_ok.mp h
    obtain ⟨chain, begun, h⟩ := Except.bind_eq_ok.mp h
    obtain ⟨⟨⟨total, tail⟩, _⟩, more, h⟩ := Except.bind_eq_ok.mp h
    cases h
    obtain ⟨others, operands, paired, addsUp⟩ := ihRest ofRest more
    exact annotated_term [signLeaf .negation minus.val] rfl
      (List.forall_mem_singleton.mpr (annotated_signLeaf rfl)) (ihFirst ofFirst read)
      (locate_eq_ok.mp begun) others paired addsUp
  | lastFactor =>
    cases h
    exact ⟨nofun, [], rfl, .nil⟩
  | product op sign next rest ihNext ihRest =>
    obtain ⟨ofNext, ofRest⟩ := List.append_subset.mp (List.cons_subset.mp members).2
    obtain ⟨⟨operand, _⟩, read, h⟩ := Except.bind_eq_ok.mp h
    obtain ⟨chain, applied, h⟩ := Except.bind_eq_ok.mp h
    obtain ⟨⟨⟨total, tail⟩, _⟩, more, h⟩ := Except.bind_eq_ok.mp h
    cases h
    obtain ⟨others, operands, paired, addsUp⟩ := ihRest ofRest more
    exact ⟨annotated_operand rfl (ihNext ofNext read) others, (op, operand) :: operands,
      operands?_cons rfl paired, .cons (locate_eq_ok.mp applied) addsUp⟩
  | silent next rest ihNext ihRest =>
    obtain ⟨ofNext, ofRest⟩ := List.append_subset.mp members
    obtain ⟨⟨operand, _⟩, read, h⟩ := Except.bind_eq_ok.mp h
    obtain ⟨chain, applied, h⟩ := Except.bind_eq_ok.mp h
    obtain ⟨⟨⟨total, tail⟩, _⟩, more, h⟩ := Except.bind_eq_ok.mp h
    cases h
    obtain ⟨others, operands, paired, addsUp⟩ := ihRest ofRest more
    exact ⟨annotated_operand rfl (ihNext ofNext read) others, (.times, operand) :: operands,
      operands?_cons rfl paired, .cons (locate_eq_ok.mp applied) addsUp⟩
  | @factor grammar _ base ih =>
    obtain ⟨⟨atom, _⟩, read, h⟩ := Except.bind_eq_ok.mp h
    cases h
    refine .node (.inl ⟨atom, rfl, ?_⟩) (List.forall_mem_singleton.mpr (ih members read))
    cases grammar <;> rfl
  | @raised grammar _ base sign exponent ihBase ihExponent =>
    obtain ⟨ofBase, ofRest⟩ := List.append_subset.mp members
    have ofExponent := (List.cons_subset.mp ofRest).2
    obtain ⟨⟨atom, _⟩, read, h⟩ := Except.bind_eq_ok.mp h
    obtain ⟨⟨power, _⟩, more, h⟩ := Except.bind_eq_ok.mp h
    obtain ⟨raised, operated, h⟩ := Except.bind_eq_ok.mp h
    cases h
    refine .node (.inr ⟨atom, signLeaf .power sign.val, power, rfl, rfl, ?_⟩) ?_
    · exact carries_raised grammar (locate_eq_ok.mp operated)
    · refine List.forall_mem_cons.mpr ⟨ihBase ofBase read, List.forall_mem_cons.mpr
        ⟨annotated_signLeaf rfl, List.forall_mem_singleton.mpr (ihExponent ofExponent more grammar)⟩⟩
  | name token => exact annotated_namedNode (members (List.mem_singleton_self _)) token.property h
  | literal token =>
    obtain ⟨number, read, h⟩ := Except.bind_eq_ok.mp h
    cases h
    exact annotated_literalNode (members (List.mem_singleton_self _)) token.property read
  | parenthesized opening inner closing ih =>
    have ofInner := (List.append_subset.mp (List.cons_subset.mp members).2).1
    exact ih ofInner h _
  | vector op keyword opening left comma right closing ihLeft ihRight =>
    obtain ⟨ofLeft, behind⟩ :=
      List.append_subset.mp (List.cons_subset.mp (List.cons_subset.mp members).2).2
    have ofRight := (List.append_subset.mp (List.cons_subset.mp behind).2).1
    obtain ⟨⟨first, _⟩, read, h⟩ := Except.bind_eq_ok.mp h
    obtain ⟨⟨second, _⟩, more, h⟩ := Except.bind_eq_ok.mp h
    obtain ⟨product, operated, h⟩ := Except.bind_eq_ok.mp h
    cases h
    exact .node ⟨first, second, product, rfl, locate_eq_ok.mp operated, rfl⟩
      (List.forall_mem_cons.mpr
        ⟨ihLeft ofLeft read _, List.forall_mem_singleton.mpr (ihRight ofRight more _)⟩)
  | integer number =>
    obtain ⟨digits, read, h⟩ := Except.bind_eq_ok.mp h
    cases h
    intro grammar
    have unsigned : digits.root.shape ≠ .negation := by
      rw [literalNode_shape read]
      nofun
    exact annotated_integer [] false (if_neg Bool.false_ne_true) (if_neg unsigned) nofun
      (annotated_literalNode (members (List.mem_singleton_self _)) number.property read)
  | negativeInteger minus number =>
    obtain ⟨digits, read, h⟩ := Except.bind_eq_ok.mp h
    cases h
    intro grammar
    have member := (List.cons_subset.mp members).2 (List.mem_singleton_self _)
    exact annotated_integer [signLeaf .negation minus.val] true (if_pos rfl) rfl
      (List.forall_mem_singleton.mpr (annotated_signLeaf rfl))
      (annotated_literalNode member number.property read)
  | grouped opening inner closing ih =>
    have ofInner := (List.append_subset.mp (List.cons_subset.mp members).2).1
    exact ih ofInner h

/-- What is read is read from tokens. -/
theorem exists_tokens_of_read {setting : Setting} {grammar : Grammar} {source : String}
    {tree : Expression} (h : read setting grammar source = .ok tree) :
    ∃ tokens, Scanner.tokenize source = .ok tokens ∧
      readTokens setting grammar tokens = .ok tree := by
  cases scanned : Scanner.tokenize source with
  | error token =>
    unfold Parser.read State.ofSource at h
    rw [scanned] at h
    cases h
  | ok tokens =>
    rw [read_eq_readTokens scanned] at h
    exact ⟨tokens, rfl, h⟩

theorem Annotated.of_readTokens {vocabulary : Vocabulary} {tokens : List Token} {tree : Expression}
    (h : readTokens (.standard vocabulary) .quantity tokens = .ok tree) :
    Annotated vocabulary tokens .quantity tree := by
  obtain ⟨derivation, permitted, same⟩ := readTokens_recognized h
  rw [readTokens_eq_evaluate derivation permitted same] at h
  obtain ⟨⟨value, numbering⟩, evaluated, rfl⟩ := Except.map_eq_ok.mp h
  have members : derivation.tokens ⊆ tokens := same ▸ List.takeWhile_subset _
  exact Derivation.annotated_of_evaluate members evaluated .quantity

namespace Annotated

variable {vocabulary : Vocabulary} {tokens : List Token} {grammar : Grammar}
  {tree within : Expression} {quantity : Quantity}

theorem part (annotated : Annotated vocabulary tokens grammar tree) (isPart : tree.Part within) :
    ∃ around, Annotated vocabulary tokens around within := by
  induction isPart generalizing grammar with
  | whole => exact ⟨grammar, annotated⟩
  | inside member _ ih =>
    cases annotated with
    | node _ below => exact ih (below _ member)

theorem carries (annotated : Annotated vocabulary tokens grammar tree) :
    tree.root.Carries vocabulary tokens grammar tree.children := by
  cases annotated with
  | node carries => exact carries

theorem worth_eq (annotated : Annotated vocabulary tokens grammar tree)
    (holds : tree.root.quantity? = some quantity) : tree.root.worth = .quantity quantity :=
  annotated.carries.agrees.eq_quantity holds

end Annotated

/-- Every node of a quantity that is read carries what its children are worth together, down to the
tokens of the source, and its value is that of its quantity if it has one. -/
theorem annotated_of_read (vocabulary : Vocabulary) {source : String} {tree : Expression}
    (h : read (.standard vocabulary) .quantity source = .ok tree) :
    ∃ tokens, Scanner.tokenize source = .ok tokens ∧
      Annotated vocabulary tokens .quantity tree ∧
      ∀ part, tree.Part part → part.root.worth.Agrees := by
  obtain ⟨tokens, scanned, reached⟩ := exists_tokens_of_read h
  have annotated := Annotated.of_readTokens reached
  refine ⟨tokens, scanned, annotated, fun part isPart => ?_⟩
  obtain ⟨_, around⟩ := annotated.part isPart
  exact around.carries.agrees

/-- An acceleration, with a sign left out, a power and a sum. -/
theorem exists_annotated_of_read :
    ∃ tree tokens, read (.standard Scope.si.vocabulary) .quantity "2 m / s ** 2 + -Pi*m/(s*s)" =
        .ok tree ∧
      Annotated Scope.si.vocabulary tokens .quantity tree := by
  have accepted : (read (.standard Scope.si.vocabulary) .quantity
      "2 m / s ** 2 + -Pi*m/(s*s)").toOption.isSome = true := by decide +kernel
  obtain ⟨tree, some⟩ := Option.isSome_iff_exists.mp accepted
  have reached := Except.toOption_eq_some.mp some
  obtain ⟨tokens, _, annotated, _⟩ := annotated_of_read Scope.si.vocabulary reached
  exact ⟨tree, tokens, reached, annotated⟩

end Dimensional
