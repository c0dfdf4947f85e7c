import Dimensional.Proofs.Numbering
import Dimensional.Proofs.Tree.Outline
import Dimensional.Tree.Node

/-! The parameters of an expression are what a walk through its nodes collects: the numbered names,
each once and in the order of the numbers. -/

namespace Dimensional

theorem Node.parameterEntry?_eq_some_iff {node : Node} {entry : String × Nat} :
    node.parameterEntry? = some entry ↔
      node.identifier? = some entry.1 ∧ node.parameter? = some entry.2 := by
  unfold Node.parameterEntry?
  cases node.identifier? <;> cases node.parameter? <;> simp [Prod.ext_iff]

namespace Expression

/-- Somewhere in an expression is a node with a name and its number. -/
def Numbers (expression : Expression) (name : String) (number : Nat) : Prop :=
  ∃ address node, (expression.at? address).map Tree.root = some node ∧
    node.identifier? = some name ∧ node.parameter? = some number

/-- No number goes with two names. -/
def NumbersUniquely (expression : Expression) : Prop :=
  ∀ name other number, expression.Numbers name number → expression.Numbers other number →
    name = other

variable {expression : Expression}

theorem numbers_iff {entry : String × Nat} : expression.Numbers entry.1 entry.2 ↔
    entry ∈ expression.walk.filterMap Node.parameterEntry? := by
  rw [List.mem_filterMap]
  constructor
  · rintro ⟨address, node, found, named⟩
    exact ⟨node, Tree.mem_walk_iff.mpr ⟨address, found⟩, Node.parameterEntry?_eq_some_iff.mpr named⟩
  · rintro ⟨node, member, same⟩
    obtain ⟨address, found⟩ := Tree.mem_walk_iff.mp member
    exact ⟨address, node, found, Node.parameterEntry?_eq_some_iff.mp same⟩

theorem mem_parameters_iff {entry : String × Nat} :
    entry ∈ expression.parameters ↔ expression.Numbers entry.1 entry.2 := by
  rw [parameters, List.mem_eraseReps, List.mem_mergeSort, numbers_iff]

/-- The numbers of the parameters rise as far as they tell the names. -/
theorem numbersUniquely_iff : expression.NumbersUniquely ↔
    expression.parameters.Pairwise fun left right => left.2 < right.2 := by
  constructor
  · intro unique
    refine List.pairwise_lt_eraseReps (pairwise_sorted _) fun left first right second same => ?_
    have numbered := numbers_iff.mpr (List.mem_mergeSort.mp first)
    have also := numbers_iff.mpr (List.mem_mergeSort.mp second)
    rw [← same] at also
    exact Prod.ext (unique left.1 right.1 left.2 numbered also) same
  · intro rises name other number numbered also
    have distinct : (expression.parameters.map Prod.snd).Nodup :=
      (List.pairwise_map.mpr rises).nodup
    have first : (name, number) ∈ expression.parameters := mem_parameters_iff.mpr numbered
    have second : (other, number) ∈ expression.parameters := mem_parameters_iff.mpr also
    exact congrArg Prod.fst (List.inj_on_of_nodup_map distinct first second rfl)

theorem NumbersUniquely.nodup (unique : expression.NumbersUniquely) :
    expression.parameters.Nodup :=
  (List.pairwise_map.mpr (numbersUniquely_iff.mp unique)).nodup.of_map

/-- A walk passes the root of an expression and then walks through one part after another. So it
meets what is at each address once, in the order of the addresses. The parameters are the names with
numbers that it meets, each of them once and in the order of the numbers, if no number goes with two
names; and their numbers rise only then. -/
theorem traversal_exact (expression : Expression) :
    expression.walk = expression.root :: expression.children.flatMap Tree.walk ∧
    (expression.places.map Prod.snd = expression.walk ∧
      (expression.places.map Prod.fst).Pairwise (· < ·) ∧
      ∀ address node, (address, node) ∈ expression.places ↔
        (expression.at? address).map Tree.root = some node) ∧
    (∀ name number, (name, number) ∈ expression.parameters ↔ expression.Numbers name number) ∧
    (expression.NumbersUniquely → expression.parameters.Nodup) ∧
    (expression.NumbersUniquely ↔
      expression.parameters.Pairwise fun left right => left.2 < right.2) :=
  ⟨expression.walk_eq_cons,
    ⟨Tree.map_snd_places, Tree.pairwise_places, fun _ _ => Tree.mem_places_iff⟩,
    fun _ _ => mem_parameters_iff, NumbersUniquely.nodup, numbersUniquely_iff⟩

/-- A name that is met twice, behind one with a later number. -/
theorem exists_parameters_of_term : ∃ expression : Expression,
    expression.NumbersUniquely ∧ expression.parameters.Nodup ∧
      expression.parameters = [("x", 0), ("y", 1)] := by
  let name (text : String) (number? : Option Nat) : Expression :=
    .leaf { shape := .identifier, location := .start, identifier? := some text, parameter? := number? }
  let term : Expression := .node { shape := .term, location := .start }
    [name "y" (some 1), name "x" (some 0), .node { shape := .factor, location := .start }
      [name "x" (some 0)], name "Pi" none]
  have met : term.walk.filterMap Node.parameterEntry? = [("y", 1), ("x", 0), ("x", 0)] := by
    rw [Tree.walk_eq_preorder]
    decide
  have sorted : [("y", 1), ("x", 0), ("x", 0)].mergeSort (fun left right => left.2 ≤ right.2) =
      [("x", 0), ("x", 0), ("y", 1)] := by simp [List.mergeSort]
  have summary : term.parameters = [("x", 0), ("y", 1)] := by
    rw [parameters, met, sorted]
    rfl
  obtain ⟨_, _, _, once, rises⟩ := traversal_exact term
  have unique : term.NumbersUniquely := by
    rw [rises, summary]
    decide
  exact ⟨term, unique, once unique, summary⟩

end Expression

end Dimensional
