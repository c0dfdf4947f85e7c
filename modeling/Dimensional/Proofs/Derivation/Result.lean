import Dimensional.Proofs.Derivation.Evaluation

/-! What evaluation can come to: the trees that a derivation stands for, or an error of what is
said and not of how it is written. -/

namespace Dimensional

open Dimensional.Parser

/-- The trees that evaluation gives, of which a rest can have any number. -/
def Category.trees : (category : Category) → category.Evaluated → List Expression
  | .sumRest _, evaluated => evaluated.2
  | .productRest _ _, evaluated => evaluated.2
  | .expression _, tree | .term _, tree | .factor _ _, tree | .atom _ _, tree | .exponent, tree =>
    [tree]

namespace Tree

variable {α β : Type}

theorem maps_eq_map (f : α → β) (trees : List (Tree α)) : maps f trees = trees.map (map f) := by
  induction trees with
  | nil => rfl
  | cons tree trees ih => rw [maps, List.map_cons, ih]

@[simp] theorem map_node (f : α → β) (root : α) (children : List (Tree α)) :
    map f (node root children) = node (f root) (children.map (map f)) := by
  rw [map, maps_eq_map]

@[simp] theorem map_leaf (f : α → β) (root : α) : map f (leaf root) = leaf (f root) := by
  rw [leaf, map_node]
  rfl

end Tree

@[simp] theorem map_signLeaf (shape : Shape) (token : Token) :
    (signLeaf shape token).map Node.mark = .leaf ⟨shape, token.location, none⟩ :=
  Tree.map_leaf _ _

section Leaf

variable {vocabulary : Vocabulary} {grammar : Grammar} {token : Token} {tree : Expression}
  {numbering after : Numbering}

theorem map_literalNode (h : literalNode token = .ok tree) :
    tree.map Node.mark = .leaf ⟨.number, token.location, none⟩ := by
  unfold literalNode at h
  split at h
  · cases h
  · cases h
    exact Tree.map_leaf _ _

theorem map_namedNode (h : namedNode vocabulary grammar token numbering = .ok (tree, after)) :
    tree.map Node.mark = .leaf ⟨.identifier, token.location, some token.text⟩ := by
  unfold namedNode at h
  split at h
  · cases h
  · split at h
    · cases h
    · split at h
      · cases h
      · cases h
        exact Tree.map_leaf _ _
  · split at h <;> cases h <;> exact Tree.map_leaf _ _

end Leaf

/-- Evaluation gives the trees of the derivation. -/
theorem Derivation.trees_of_evaluate {setting : Setting} {derivation : Derivation category}
    {carried : category.Carried} {depth : Nat} {numbering after : Numbering}
    {value : category.Evaluated}
    (h : derivation.evaluate setting carried depth numbering = .ok (value, after)) :
    (category.trees value).map (Tree.map Node.mark) = derivation.trees := by
  induction derivation generalizing depth numbering after with
  | expression first rest ihFirst ihRest =>
    obtain ⟨_, _, h⟩ := Except.bind_eq_ok.mp h
    obtain ⟨⟨head, _⟩, read, h⟩ := Except.bind_eq_ok.mp h
    obtain ⟨⟨⟨total, tail⟩, _⟩, more, h⟩ := Except.bind_eq_ok.mp h
    cases h
    rw [trees, ← ihFirst read, ← ihRest more]
    simp [Category.trees, Node.mark]
  | lastTerm =>
    cases h
    rfl
  | sum op sign next rest ihNext ihRest =>
    obtain ⟨⟨operand, _⟩, read, h⟩ := Except.bind_eq_ok.mp h
    obtain ⟨total, _, h⟩ := Except.bind_eq_ok.mp h
    obtain ⟨⟨⟨total, tail⟩, _⟩, more, h⟩ := Except.bind_eq_ok.mp h
    cases h
    rw [trees, ← ihNext read, ← ihRest more]
    simp [Category.trees]
  | term first rest ihFirst ihRest | negated minus first rest ihFirst ihRest =>
    obtain ⟨⟨head, _⟩, read, h⟩ := Except.bind_eq_ok.mp h
    obtain ⟨chain, _, h⟩ := Except.bind_eq_ok.mp h
    obtain ⟨⟨⟨chain, tail⟩, _⟩, more, h⟩ := Except.bind_eq_ok.mp h
    cases h
    rw [trees, ← ihFirst read, ← ihRest more]
    simp [Category.trees, Node.mark]
  | lastFactor =>
    cases h
    rfl
  | product op sign next rest ihNext ihRest | silent next rest ihNext ihRest =>
    obtain ⟨⟨operand, _⟩, read, h⟩ := Except.bind_eq_ok.mp h
    obtain ⟨chain, _, h⟩ := Except.bind_eq_ok.mp h
    obtain ⟨⟨⟨chain, tail⟩, _⟩, more, h⟩ := Except.bind_eq_ok.mp h
    cases h
    rw [trees, ← ihNext read, ← ihRest more]
    simp [Category.trees, location]
  | factor base ih =>
    obtain ⟨⟨atom, _⟩, read, h⟩ := Except.bind_eq_ok.mp h
    cases h
    rw [trees, ← ih read]
    simp [Category.trees, Node.mark]
  | raised base sign exponent ihBase ihExponent =>
    obtain ⟨⟨atom, _⟩, read, h⟩ := Except.bind_eq_ok.mp h
    obtain ⟨⟨power, _⟩, more, h⟩ := Except.bind_eq_ok.mp h
    obtain ⟨raised, _, h⟩ := Except.bind_eq_ok.mp h
    cases h
    rw [trees, ← ihBase read, ← ihExponent more]
    simp [Category.trees, Node.mark]
  | name token => exact congrArg (fun tree => [tree]) (map_namedNode h)
  | literal token =>
    obtain ⟨number, read, h⟩ := Except.bind_eq_ok.mp h
    cases h
    exact congrArg (fun tree => [tree]) (map_literalNode read)
  | parenthesized opening inner closing ih | grouped opening inner closing ih => exact ih h
  | vector op keyword opening left comma right closing ihLeft ihRight =>
    obtain ⟨⟨first, _⟩, read, h⟩ := Except.bind_eq_ok.mp h
    obtain ⟨⟨second, _⟩, more, h⟩ := Except.bind_eq_ok.mp h
    obtain ⟨product, _, h⟩ := Except.bind_eq_ok.mp h
    cases h
    rw [trees, ← ihLeft read, ← ihRight more]
    simp [Category.trees, Node.mark]
  | integer number | negativeInteger minus number =>
    obtain ⟨digits, read, h⟩ := Except.bind_eq_ok.mp h
    cases h
    simp [Category.trees, trees, Node.mark, map_literalNode read]

/-- Errors of what is said: of its names, its nesting or its dimensions. -/
def ParseError.IsOfMeaning : ParseError → Prop
  | .unknownIdentifier _ | .notConstant _ | .notDimensionless _ _ | .tooDeep _ | .algebra _ _ => True
  | .invalidToken _ | .invalidNumber _ | .unexpected _ _ => False

/-- All numbers among some tokens can be read. -/
def Readable (tokens : List Token) : Prop :=
  ∀ token ∈ tokens, token.kind = .number → (Number.read? token.text).isSome

instance (tokens : List Token) : Decidable (Readable tokens) :=
  inferInstanceAs (Decidable (∀ _ ∈ _, _ → _))

theorem Readable.subset {tokens others : List Token} (readable : Readable tokens)
    (h : others ⊆ tokens) : Readable others :=
  fun token member => readable token (h member)

section Failure

variable {vocabulary : Vocabulary} {setting : Setting} {grammar : Grammar}

theorem allowNesting_failsOnly {limit? : Option Nat} {depth : Nat} :
    (allowNesting limit? depth).FailsOnly ParseError.IsOfMeaning := by
  unfold allowNesting
  intro error failed
  split at failed
  · cases failed
    trivial
  · cases failed

theorem locate_failsOnly {α : Type} {location : Location} {result : Except AlgebraError α} :
    (locate location result).FailsOnly ParseError.IsOfMeaning := by
  intro error failed
  cases result with
  | error reason =>
    cases failed
    trivial
  | ok value => cases failed

theorem namedNode_failsOnly {token : Token} {numbering : Numbering} :
    (namedNode vocabulary grammar token numbering).FailsOnly ParseError.IsOfMeaning := by
  unfold namedNode
  intro error failed
  split at failed
  · cases failed
    trivial
  · split at failed
    · cases failed
      trivial
    · split at failed
      · cases failed
        trivial
      · cases failed
  · split at failed <;> cases failed

/-- A number that can be read has a node. -/
theorem literalNode_failsOnly {token : Terminal .number} {p : ParseError → Prop}
    (readable : Readable [token.val]) : (literalNode token.val).FailsOnly p := by
  obtain ⟨value, read⟩ := Option.isSome_iff_exists.mp (readable token.val (by simp) token.property)
  unfold literalNode
  rw [read]
  exact .ok

/-- Nothing but the meaning of what is derived can be wrong. -/
theorem Derivation.evaluate_failsOnly (derivation : Derivation category)
    (readable : Readable derivation.tokens) (carried : category.Carried) (depth : Nat)
    (numbering : Numbering) :
    (derivation.evaluate setting carried depth numbering).FailsOnly ParseError.IsOfMeaning := by
  induction derivation generalizing depth numbering with
  | expression first rest ihFirst ihRest =>
    refine allowNesting_failsOnly.bind fun _ => ?_
    refine (ihFirst (readable.subset (by simp)) _ _ _).bind fun _ => ?_
    exact (ihRest (readable.subset (by simp)) _ _ _).bind fun _ => .ok
  | lastTerm | lastFactor => exact .ok
  | sum op sign next rest ihNext ihRest | product op sign next rest ihNext ihRest
  | silent next rest ihNext ihRest =>
    refine (ihNext (readable.subset (by simp)) _ _ _).bind fun _ => ?_
    refine locate_failsOnly.bind fun _ => ?_
    exact (ihRest (readable.subset (by simp)) _ _ _).bind fun _ => .ok
  | term first rest ihFirst ihRest | negated minus first rest ihFirst ihRest =>
    refine (ihFirst (readable.subset (by simp)) _ _ _).bind fun _ => ?_
    refine locate_failsOnly.bind fun _ => ?_
    exact (ihRest (readable.subset (by simp)) _ _ _).bind fun _ => .ok
  | factor base ih => exact (ih readable _ _ _).bind fun _ => .ok
  | raised base sign exponent ihBase ihExponent =>
    refine (ihBase (readable.subset (by simp)) _ _ _).bind fun _ => ?_
    refine (ihExponent (readable.subset (by simp)) _ _ _).bind fun _ => ?_
    exact locate_failsOnly.bind fun _ => .ok
  | name token => exact namedNode_failsOnly
  | literal token => exact (literalNode_failsOnly readable).bind fun _ => .ok
  | parenthesized opening inner closing ih | grouped opening inner closing ih =>
    exact ih (readable.subset (by simp)) _ _ _
  | vector op keyword opening left comma right closing ihLeft ihRight =>
    have first : Readable left.tokens := by
      intro token member
      exact readable token (by simp [member])
    have second : Readable right.tokens := by
      intro token member
      exact readable token (by simp [member])
    refine (ihLeft first _ _ _).bind fun _ => ?_
    refine (ihRight second _ _ _).bind fun _ => ?_
    exact locate_failsOnly.bind fun _ => .ok
  | integer number => exact (literalNode_failsOnly readable).bind fun _ => .ok
  | negativeInteger minus number =>
    exact (literalNode_failsOnly (readable.subset (by simp))).bind fun _ => .ok

end Failure

end Dimensional
