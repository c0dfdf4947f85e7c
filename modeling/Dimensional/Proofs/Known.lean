import Dimensional.Proofs.Annotation
import Dimensional.Proofs.Quantity.Known
import Dimensional.Proofs.Scope
import Dimensional.Proofs.Tree

/-! Which quantities of a tree have a known value, and which are constants. A value is known where
the rules lead to a leaf whose value is. -/

namespace Dimensional

/-- Every second element, from the first one on. -/
def everySecond {α : Type} : List α → List α
  | [] => []
  | [value] => [value]
  | value :: _ :: rest => value :: everySecond rest

/-- Whether values of nodes of a shape can be known. Vector products never are. -/
def Shape.canBeKnown : Shape → Bool
  | .identifier | .number | .factor | .term | .expression .quantity => true
  | _ => false

namespace Expression

/-- The terms of a sum of quantities, and the factors of a term. They stand between the signs. -/
def operands (tree : Expression) : List Expression :=
  match tree.root.shape with
  | .expression .quantity => everySecond tree.children
  | .term => everySecond (splitSign tree.children).2
  | _ => []

/-- The value of a sum or a term is known if one of its operands is, and that of a factor if its base
is or it is raised to zero. Literals are known, and names as what they mean. -/
inductive IsKnown (vocabulary : Vocabulary) : Expression → Prop where
  | literal {tree : Expression} (shape : tree.root.shape = .number) : IsKnown vocabulary tree
  | name {tree : Expression} {name : String} {quantity : Quantity}
      (shape : tree.root.shape = .identifier) (named : tree.root.identifier? = some name)
      (means : vocabulary.Means name quantity) (known : quantity.hasValue = true) :
      IsKnown vocabulary tree
  | operand {tree operand : Expression} (member : operand ∈ tree.operands)
      (known : IsKnown vocabulary operand) : IsKnown vocabulary tree
  | base {tree atom : Expression} {rest : List Expression} (shape : tree.root.shape = .factor)
      (first : tree.children = atom :: rest) (known : IsKnown vocabulary atom) :
      IsKnown vocabulary tree
  | zerothPower {tree atom sign exponent : Expression} (shape : tree.root.shape = .factor)
      (raised : tree.children = [atom, sign, exponent]) (zero : (exponent.value == 0.0) = true) :
      IsKnown vocabulary tree

/-- A sum or a term. -/
def IsJoined (tree : Expression) : Prop :=
  tree.root.shape = .expression .quantity ∨ tree.root.shape = .term

/-- What is known of a quantity that is made of operands. -/
structure Join (operands : List Expression) (quantity : Quantity) : Prop where
  isConstant : quantity.isConstant = operands.all fun operand => operand.model.isConstant
  hasValue : quantity.hasValue = operands.any fun operand => operand.model.hasValue
  honest : (∀ operand ∈ operands, operand.model.scalar.IsHonest) → quantity.scalar.IsHonest

variable {vocabulary : Vocabulary} {tree first : Expression} {quantity start : Quantity}

theorem operands_eq_nil (plain : ¬ tree.IsJoined) : tree.operands = [] := by
  unfold operands
  split
  · rename_i shape
    exact absurd (.inl shape) plain
  · rename_i shape
    exact absurd (.inr shape) plain
  · rfl

theorem operands_of_sum (shape : tree.root.shape = .expression .quantity) :
    tree.operands = everySecond tree.children := by
  rw [operands, shape]

theorem operands_of_term (shape : tree.root.shape = .term) :
    tree.operands = everySecond (splitSign tree.children).2 := by
  rw [operands, shape]

/-- The operands of a sum or a term are the only rule for it. -/
theorem isKnown_iff_of_isJoined (joined : tree.IsJoined) :
    IsKnown vocabulary tree ↔ ∃ operand ∈ tree.operands, IsKnown vocabulary operand := by
  constructor
  · intro known
    cases known with
    | operand member known => exact ⟨_, member, known⟩
    | literal shape | name shape | base shape | zerothPower shape =>
      rcases joined with sum | term <;> simp_all
  · intro known
    obtain ⟨operand, member, known⟩ := known
    exact .operand member known

/-- There is one rule for each other kind of node, if there is any. -/
theorem isKnown_of_not_isJoined (plain : ¬ tree.IsJoined) (known : IsKnown vocabulary tree) :
    tree.root.shape = .number ∨
    (tree.root.shape = .identifier ∧ ∃ name quantity, tree.root.identifier? = some name ∧
      vocabulary.Means name quantity ∧ quantity.hasValue = true) ∨
    (tree.root.shape = .factor ∧
      ((∃ atom rest, tree.children = atom :: rest ∧ IsKnown vocabulary atom) ∨
        ∃ atom sign exponent : Expression, tree.children = [atom, sign, exponent] ∧
          (exponent.value == 0.0) = true)) := by
  cases known with
  | literal shape => exact .inl shape
  | name shape named means known => exact .inr (.inl ⟨shape, _, _, named, means, known⟩)
  | operand member =>
    rw [operands_eq_nil plain] at member
    cases member
  | base shape first known => exact .inr (.inr ⟨shape, .inl ⟨_, _, first, known⟩⟩)
  | zerothPower shape raised zero => exact .inr (.inr ⟨shape, .inr ⟨_, _, _, raised, zero⟩⟩)

/-- No rule leads to nodes of other shapes. -/
theorem canBeKnown_of_isKnown (known : IsKnown vocabulary tree) :
    tree.root.shape.canBeKnown = true := by
  by_cases joined : tree.IsJoined
  · rcases joined with shape | shape <;> rw [shape] <;> rfl
  · rcases isKnown_of_not_isJoined joined known with shape | ⟨shape, _⟩ | ⟨shape, _⟩ <;>
      rw [shape] <;> rfl

/-- Operands stand at every second place. -/
theorem everySecond_of_operands? {α : Type} {op? : Shape → Option α} {rest : List Expression}
    {operands : List (α × Expression)} (paired : operands? op? rest = some operands) :
    everySecond (first :: rest) = first :: operands.map Prod.snd := by
  induction rest using operands?.induct op? generalizing first operands with
  | case1 =>
    cases paired
    rfl
  | case2 => cases paired
  | case3 sign next rest op others found isSign ih =>
    rw [operands?_cons isSign found] at paired
    cases paired
    rw [everySecond, ih found]
    rfl
  | case4 sign next rest none =>
    rw [operands?] at paired
    split at paired
    · rename_i op others isSign found
      exact (none op others isSign found).elim
    · cases paired

theorem flags_of_sum {rest : List (AddOp × Expression)}
    (h : rest.foldlM (fun sum next => sum.add next.1 next.2.model) start = .ok quantity) :
    quantity.isConstant = (start.isConstant && rest.all fun next => next.2.model.isConstant) ∧
      quantity.hasValue = (start.hasValue || rest.any fun next => next.2.model.hasValue) := by
  induction rest generalizing start with
  | nil =>
    cases h
    simp
  | cons next rest ih =>
    rw [List.foldlM_cons] at h
    obtain ⟨sum, added, more⟩ := Except.bind_eq_ok.mp h
    obtain ⟨constant, known⟩ := ih more
    have flags := Quantity.scalar_of_add added
    simp only [Quantity.scalar, Scalar.add, Scalar.mk.injEq] at flags
    rw [constant, known, flags.1, flags.2.1]
    simp [Bool.and_assoc, Bool.or_assoc]

theorem join_of_sum {rest : List (AddOp × Expression)}
    (h : first.sumOfQuantities rest = .ok quantity) :
    Join (first :: rest.map Prod.snd) quantity := by
  obtain ⟨constant, known⟩ := flags_of_sum h
  refine ⟨?_, ?_, fun honest => ?_⟩
  · rw [constant, List.all_cons, List.all_map]
    rfl
  · rw [known, List.any_cons, List.any_map]
    rfl
  · obtain ⟨ofFirst, ofRest⟩ := List.forall_mem_cons.mp honest
    refine Except.foldlM_preserves (p := fun sum : Quantity => sum.scalar.IsHonest) ?_ ofFirst h
    intro sum next member total ofSum added
    rw [Quantity.scalar_of_add added]
    exact ofSum.add next.1 (ofRest next.2 (List.mem_map_of_mem member))

theorem join_of_product {negated : Bool} {rest : List (MulOp × Expression)}
    (h : first.productOfQuantities negated rest = .ok quantity) :
    Join (first :: rest.map Prod.snd) quantity := by
  obtain ⟨begun, started, h⟩ := Except.bind_eq_ok.mp h
  obtain ⟨term, applied, h⟩ := Except.bind_eq_ok.mp h
  cases h
  have ofFirst := Term.scalar_of_ofFactor started
  obtain ⟨constant, known⟩ := Term.scalar_of_applyAll applied
  rw [ofFirst] at constant known
  have isConstant : term.finish.isConstant =
      (first :: rest.map Prod.snd).all fun operand => operand.model.isConstant := by
    change term.scalar.isConstant = _
    rw [constant, List.all_cons, List.all_map, List.all_map]
    rfl
  have hasValue : term.finish.hasValue =
      (first :: rest.map Prod.snd).any fun operand => operand.model.hasValue := by
    change term.scalar.hasValue = _
    rw [known, List.any_cons, List.any_map, List.any_map]
    rfl
  refine ⟨isConstant, hasValue, fun honest => ?_⟩
  have knows : term.scalar.isConstant = true → term.scalar.hasValue = true := by
    intro constant
    have all := isConstant.symm.trans constant
    have ofConstant := List.all_eq_true.mp all first List.mem_cons_self
    exact hasValue.trans (List.any_eq_true.mpr
      ⟨first, List.mem_cons_self, (honest first List.mem_cons_self).known ofConstant⟩)
  exact Scalar.IsHonest.finish knows

end Expression

namespace Vocabulary

variable {vocabulary : Vocabulary} {name : String} {quantity other : Quantity}

/-- All that names can mean is honest. -/
def IsHonest (vocabulary : Vocabulary) : Prop :=
  ∀ name quantity, vocabulary.Means name quantity → quantity.scalar.IsHonest

/-- A name has one meaning at most. -/
theorem Means.unique (means : vocabulary.Means name quantity) (also : vocabulary.Means name other) :
    quantity = other := by
  cases means with
  | bound found =>
    cases also with
    | bound again => exact Option.some.inj (found.symm.trans again)
    | dimension free => simp [found] at free
  | dimension free found =>
    cases also with
    | bound again => simp [again] at free
    | dimension _ again => rw [Option.some.inj (found.symm.trans again)]

end Vocabulary

namespace Expression

variable {vocabulary : Vocabulary} {tree atom : Expression} {quantity : Quantity}

/-- A node is honest about its value, which is known where the rules say so. -/
structure Follows (vocabulary : Vocabulary) (tree : Expression) : Prop where
  honest : tree.model.scalar.IsHonest
  hasValue : tree.model.hasValue = true ↔ IsKnown vocabulary tree

theorem model_of_worth (worth : tree.root.worth = .quantity quantity) : tree.model = quantity := by
  rw [model, worth]
  rfl

theorem scalar_of_number {value : Float} (worth : tree.root.worth = .number value) :
    tree.model.scalar = .unknown := by
  rw [model, worth]
  rfl

theorem follows_of_literal (shape : tree.root.shape = .number) {value : Float}
    (worth : tree.root.worth = .quantity (.constant value)) : tree.Follows vocabulary := by
  constructor
  · rw [model_of_worth worth]
    exact Scalar.isHonest_constant
  · rw [model_of_worth worth]
    exact ⟨fun _ => .literal shape, fun _ => rfl⟩

theorem follows_of_name (honest : vocabulary.IsHonest) (shape : tree.root.shape = .identifier)
    {name : String} (named : tree.root.identifier? = some name)
    (means : vocabulary.Means name quantity) (worth : tree.root.worth = .quantity quantity) :
    tree.Follows vocabulary := by
  constructor
  · rw [model_of_worth worth]
    exact honest name quantity means
  · rw [model_of_worth worth]
    constructor
    · exact .name shape named means
    · intro known
      have plain : ¬ tree.IsJoined := by simp [IsJoined, shape]
      have rule := isKnown_of_not_isJoined plain known
      simp only [shape, reduceCtorEq, false_and, true_and, false_or, or_false] at rule
      obtain ⟨also, other, again, meant, known⟩ := rule
      obtain rfl := Option.some.inj (named.symm.trans again)
      rwa [means.unique meant]

theorem follows_of_unknown (never : tree.root.shape.canBeKnown = false)
    (unknown : tree.model.scalar = .unknown) : tree.Follows vocabulary := by
  constructor
  · rw [unknown]
    exact Scalar.isHonest_unknown
  · have none : tree.model.hasValue = false := congrArg Scalar.hasValue unknown
    constructor
    · intro some
      simp [none] at some
    · intro known
      simp [canBeKnown_of_isKnown known] at never

/-- There are two rules for factors. -/
theorem isKnown_iff_of_factor (shape : tree.root.shape = .factor) :
    IsKnown vocabulary tree ↔
      (∃ atom rest, tree.children = atom :: rest ∧ IsKnown vocabulary atom) ∨
        ∃ atom sign exponent : Expression, tree.children = [atom, sign, exponent] ∧
          (exponent.value == 0.0) = true := by
  constructor
  · intro known
    have plain : ¬ tree.IsJoined := by simp [IsJoined, shape]
    simpa [shape] using isKnown_of_not_isJoined plain known
  · intro rule
    rcases rule with ⟨atom, rest, first, known⟩ | ⟨atom, sign, exponent, raised, zero⟩
    · exact .base shape first known
    · exact .zerothPower shape raised zero

theorem Follows.factor (ofAtom : atom.Follows vocabulary) (shape : tree.root.shape = .factor)
    (alone : tree.children = [atom]) (worth : tree.root.worth = .quantity atom.model) :
    tree.Follows vocabulary := by
  constructor
  · rw [model_of_worth worth]
    exact ofAtom.honest
  · rw [model_of_worth worth, ofAtom.hasValue, isKnown_iff_of_factor shape, alone]
    simp

theorem Follows.power (ofAtom : atom.Follows vocabulary) (shape : tree.root.shape = .factor)
    {sign exponent : Expression} (raised : tree.children = [atom, sign, exponent])
    (power : atom.model.power exponent.value = .ok quantity)
    (worth : tree.root.worth = .quantity quantity) : tree.Follows vocabulary := by
  have scalar := Quantity.scalar_of_power power
  constructor
  · rw [model_of_worth worth, scalar]
    exact ofAtom.honest.power exponent.value
  · have hasValue : quantity.hasValue = (atom.model.scalar.power exponent.value).hasValue :=
      congrArg Scalar.hasValue scalar
    have base : atom.model.scalar.hasValue = true ↔ IsKnown vocabulary atom := ofAtom.hasValue
    rw [model_of_worth worth, hasValue, Scalar.hasValue_power, base, isKnown_iff_of_factor shape,
      raised]
    simp [or_comm]

theorem follows_of_join (joined : tree.IsJoined) (join : Join tree.operands quantity)
    (worth : tree.root.worth = .quantity quantity)
    (below : ∀ operand ∈ tree.operands, operand.Follows vocabulary) : tree.Follows vocabulary := by
  constructor
  · rw [model_of_worth worth]
    exact join.honest fun operand member => (below operand member).honest
  · rw [model_of_worth worth, join.hasValue, List.any_eq_true, isKnown_iff_of_isJoined joined]
    constructor
    · intro some
      obtain ⟨operand, member, known⟩ := some
      exact ⟨operand, member, (below operand member).hasValue.mp known⟩
    · intro some
      obtain ⟨operand, member, known⟩ := some
      exact ⟨operand, member, (below operand member).hasValue.mpr known⟩

theorem everySecond_subset (list : List Expression) : everySecond list ⊆ list := by
  induction list using everySecond.induct with
  | case1 => exact List.nil_subset _
  | case2 => exact List.Subset.refl _
  | case3 value skipped rest ih =>
    exact List.cons_subset.mpr ⟨List.mem_cons_self, fun other member =>
      List.mem_cons_of_mem _ (List.mem_cons_of_mem _ (ih member))⟩

theorem splitSign_subset (children : List Expression) : (splitSign children).2 ⊆ children := by
  cases children with
  | nil => exact List.nil_subset _
  | cons first rest =>
    by_cases negated : first.root.shape = .negation
    · rw [splitSign, if_pos negated]
      exact List.subset_cons_self _ _
    · rw [splitSign, if_neg negated]
      exact List.Subset.refl _

theorem operands_subset (tree : Expression) : tree.operands ⊆ tree.children := by
  unfold operands
  split
  · exact everySecond_subset _
  · exact List.Subset.trans (everySecond_subset _) (splitSign_subset _)
  · exact List.nil_subset _

end Expression

namespace Annotated

open Expression

variable {vocabulary : Vocabulary} {tokens : List Token} {grammar : Grammar} {tree : Expression}
  {quantity : Quantity}

/-- Whatever stands in a quantity that is read is annotated. -/
theorem of_read_part {source : String} {within : Expression}
    (h : Parser.read (.standard vocabulary) .quantity source = .ok tree)
    (isPart : tree.Part within) :
    ∃ tokens around, Annotated vocabulary tokens around within := by
  obtain ⟨tokens, _, reached⟩ := exists_tokens_of_read h
  exact ⟨tokens, (of_readTokens reached).part isPart⟩

/-- A sum or a term that is a quantity is made of its operands. -/
theorem join (annotated : Annotated vocabulary tokens grammar tree) (joined : tree.IsJoined)
    (model : tree.root.worth = .quantity quantity) : Join tree.operands quantity := by
  have carries := annotated.carries
  rcases joined with shape | shape
  · simp only [Node.Carries, shape] at carries
    obtain ⟨first, rest, operands, children, paired, result, sum, worth⟩ := carries
    obtain rfl := Worth.quantity_inj.mp (model.symm.trans worth)
    rw [operands_of_sum shape, children, everySecond_of_operands? paired]
    exact join_of_sum sum
  · simp only [Node.Carries, shape] at carries
    obtain ⟨negated, first, rest, operands, split, paired, carries⟩ := carries
    rw [operands_of_term shape, split, everySecond_of_operands? paired]
    cases grammar with
    | numeric =>
      exact absurd (model.symm.trans carries) Worth.quantity_ne_number
    | quantity =>
      obtain ⟨result, product, worth⟩ := carries
      obtain rfl := Worth.quantity_inj.mp (model.symm.trans worth)
      exact join_of_product product

/-- Terms and factors that are quantities belong to quantities. -/
theorem grammar_eq (annotated : Annotated vocabulary tokens grammar tree)
    (shape : tree.root.shape = .term ∨ tree.root.shape = .factor)
    (ofQuantity : grammar = .quantity ∨ ∃ quantity, tree.root.worth = .quantity quantity) :
    grammar = .quantity := by
  rcases ofQuantity with same | ⟨quantity, worth⟩
  · exact same
  · cases grammar with
    | quantity => rfl
    | numeric =>
      have carries := annotated.carries
      rcases shape with shape | shape <;>
        simp [Node.Carries, shape, worth, Worth.quantity_ne_number] at carries

/-- Quantities are known as the rules say. A bare number counts as a quantity of which nothing is
known. -/
theorem follows (honest : vocabulary.IsHonest) (annotated : Annotated vocabulary tokens grammar tree)
    (ofQuantity : grammar = .quantity ∨ ∃ quantity, tree.root.worth = .quantity quantity) :
    tree.Follows vocabulary := by
  induction annotated with
  | @node children grammar root carries below ih =>
    have annotated : Annotated vocabulary tokens grammar (.node root children) := .node carries below
    have children_follow (same : root.shape.grammarBelow grammar = .quantity) :
        ∀ child ∈ children, Follows vocabulary child :=
      fun child member => ih child member (.inl same)
    cases shape : root.shape with
    | identifier =>
      simp only [Node.Carries, shape] at carries
      obtain ⟨_, token, _, _, _, named, quantity, means, worth⟩ := carries
      exact follows_of_name honest shape named means worth
    | number =>
      simp only [Node.Carries, shape] at carries
      obtain ⟨_, token, _, _, _, value, _, worth⟩ := carries
      exact follows_of_literal shape worth
    | factor =>
      obtain rfl := annotated.grammar_eq (.inr shape) ofQuantity
      have follow := children_follow (by simp [shape, Shape.grammarBelow])
      simp only [Node.Carries, shape] at carries
      rcases carries with ⟨atom, rfl, worth⟩ | ⟨atom, sign, exponent, rfl, _, quantity, power, worth⟩
      · exact (follow atom List.mem_cons_self).factor shape rfl worth
      · exact (follow atom List.mem_cons_self).power shape rfl power worth
    | term =>
      obtain rfl := annotated.grammar_eq (.inl shape) ofQuantity
      have follow := children_follow (by simp [shape, Shape.grammarBelow])
      simp only [Node.Carries, shape] at carries
      obtain ⟨_, _, _, _, _, _, quantity, _, worth⟩ := carries
      exact follows_of_join (.inr shape) (annotated.join (.inr shape) worth) worth
        fun operand member => follow operand (operands_subset _ member)
    | expression inner =>
      cases inner with
      | quantity =>
        have follow := children_follow (by simp [shape, Shape.grammarBelow])
        simp only [Node.Carries, shape] at carries
        obtain ⟨_, _, _, _, _, quantity, _, worth⟩ := carries
        exact follows_of_join (.inl shape) (annotated.join (.inl shape) worth) worth
          fun operand member => follow operand (operands_subset _ member)
      | numeric =>
        simp only [Node.Carries, shape] at carries
        obtain ⟨_, _, _, _, _, worth⟩ := carries
        exact follows_of_unknown (congrArg Shape.canBeKnown shape) (scalar_of_number worth)
    | vector op =>
      simp only [Node.Carries, shape] at carries
      obtain ⟨left, right, quantity, _, product, worth⟩ := carries
      have same : Expression.model (.node root children) = quantity := model_of_worth worth
      have unknown := Quantity.scalar_of_vectorProduct product
      exact follows_of_unknown (congrArg Shape.canBeKnown shape)
        ((congrArg Quantity.scalar same).trans unknown)
    | integer =>
      simp only [Node.Carries, shape] at carries
      obtain ⟨_, _, _, worth⟩ := carries
      exact follows_of_unknown (congrArg Shape.canBeKnown shape) (scalar_of_number worth)
    | negation | sum | product | power =>
      simp only [Node.Carries, shape] at carries
      exact follows_of_unknown (congrArg Shape.canBeKnown shape) (scalar_of_number carries.2)

end Annotated

end Dimensional
