import Dimensional.Proofs.Known
import Dimensional.Proofs.Scope

/-! Scopes in which nothing is bound but what is stated by its value or its dimensions. There all
quantities are known as the rules say. -/

namespace Dimensional.Scope

/-- Scopes that are stated: every constant by its value, every quantity by its dimensions. They may
start from any table. -/
abbrev Stated : Scope → Prop := Arises (fun _ => True) fun _ _ => False

/-- All that is bound is honest. -/
def BindsHonestly (scope : Scope) : Prop :=
  ∀ entry ∈ scope.bindings, entry.2.scalar.IsHonest

variable {scope : Scope}

/-- A declared quantity is a constant if its value is given, and unknown otherwise. -/
theorem isHonest_of_declared {declaration : QuantityDeclaration} {bound : Quantity}
    (h : scope.declared declaration = .ok bound) : bound.scalar.IsHonest := by
  obtain ⟨described, found, rfl⟩ := Except.map_eq_ok.mp h
  obtain ⟨_, _, _, _, rfl⟩ := quantity_eq_ok.mp found
  dsimp only
  cases declaration.value? with
  | some value => exact Scalar.isHonest_constant
  | none => exact Scalar.isHonest_unknown

theorem Stated.bindsHonestly (stated : scope.Stated) : scope.BindsHonestly :=
  stated.forall_bindings (p := fun quantity => quantity.scalar.IsHonest) (fun honest => honest)
    (fun _ => Scalar.isHonest_constant) isHonest_of_declared nofun

theorem BindsHonestly.vocabulary (binds : scope.BindsHonestly) : scope.vocabulary.IsHonest := by
  intro name quantity means
  cases means with
  | bound looked => exact binds _ (mem_of_get? looked)
  | dimension => exact Scalar.isHonest_unknown

open Dimensional.Parser Dimensional.Expression

/-- Wherever a tree that is read holds a quantity, constants are known and the unknown is zero. The
value is known exactly where the rules lead to a leaf that is, and a sum or a term is constant
exactly if all its operands are. -/
theorem Stated.known_exact (stated : scope.Stated) {source : String}
    {tree part : Expression} {quantity : Quantity}
    (h : read (.standard scope.vocabulary) .quantity source = .ok tree) (isPart : tree.Part part)
    (holds : part.root.quantity? = some quantity) :
    (quantity.isConstant = true → quantity.hasValue = true) ∧
    (quantity.hasValue = false → quantity.value = 0.0) ∧
    (quantity.hasValue = true ↔ IsKnown scope.vocabulary part) ∧
    (part.IsJoined → (quantity.isConstant = true ↔
      ∀ operand ∈ part.operands, operand.model.isConstant = true)) := by
  obtain ⟨tokens, grammar, annotated⟩ := Annotated.of_read_part h isPart
  have worth := annotated.worth_eq holds
  have follows := annotated.follows stated.bindsHonestly.vocabulary (.inr ⟨quantity, worth⟩)
  have honest := follows.honest
  have hasValue := follows.hasValue
  rw [model_of_worth worth] at honest hasValue
  refine ⟨honest.known, honest.zero, hasValue, fun joined => ?_⟩
  rw [(annotated.join joined worth).isConstant, List.all_eq_true]

/-- A sum with a literal and a name whose value is known, and others that are not. -/
theorem exists_known_sum :
    ∃ tree quantity, read (.standard si.vocabulary) .quantity "2 m / s ** 2 + -Pi*m/(s*s)" =
        .ok tree ∧
      tree.root.quantity? = some quantity ∧ IsKnown si.vocabulary tree ∧
      ∃ operand ∈ tree.operands, operand.model.isConstant = false := by
  have accepted : (read (.standard si.vocabulary) .quantity
      "2 m / s ** 2 + -Pi*m/(s*s)").toOption.map (fun tree =>
        (tree.root.shape, tree.root.quantity?.map fun quantity =>
          (quantity.hasValue, quantity.isConstant))) =
      some (.expression .quantity, some (true, false)) := by
    decide +kernel
  obtain ⟨tree, read, both⟩ := Option.map_eq_some_iff.mp accepted
  obtain ⟨shape, flags⟩ := Prod.mk.inj both
  obtain ⟨quantity, holds, flags⟩ := Option.map_eq_some_iff.mp flags
  obtain ⟨known, changing⟩ := Prod.mk.inj flags
  have reached := Except.toOption_eq_some.mp read
  obtain ⟨_, _, hasValue, isConstant⟩ := Stated.known_exact .si reached .whole holds
  refine ⟨tree, quantity, reached, holds, hasValue.mp known, ?_⟩
  have some := isConstant (.inl shape)
  simp only [changing, Bool.false_eq_true, false_iff, not_forall] at some
  obtain ⟨operand, member, plain⟩ := some
  exact ⟨operand, member, Bool.eq_false_iff.mpr plain⟩

end Dimensional.Scope
