import Dimensional.Proofs.Known
import Dimensional.Proofs.Number.Power

/-! The values of powers in a tree. A zero is left as it is, known or not, and that is its power in a
few cases only. -/

namespace Dimensional

namespace Scalar

variable (base : Scalar) {exponent : Float}

/-- A zero is only raised to zero. -/
theorem value_power_of_zero (zero : (base.value == 0.0) = true) (nonzero : (exponent == 0.0) = false) :
    (base.power exponent).value = base.value := by
  rw [power, if_neg (Bool.eq_false_iff.mp nonzero)]
  exact if_pos zero

/-- What is no zero is raised to every exponent. -/
theorem value_power_of_nonzero (nonzero : (base.value == 0.0) = false) :
    (base.power exponent).value = Number.power base.value exponent := by
  unfold power
  by_cases zeroth : (exponent == 0.0) = true
  · rw [if_pos zeroth, Number.power_zero zeroth]
    rfl
  · rw [if_neg zeroth]
    exact if_neg (Bool.eq_false_iff.mp nonzero)

theorem value_power_eq_iff (exponent : Float) :
    (base.power exponent).value = Number.power base.value exponent ↔
      (base.value == 0.0) = false ∨ (exponent == 0.0) = true ∨
        (0.0 < exponent ∧ (Number.isOdd exponent = true ∨ base.value = 0.0)) := by
  cases zero : base.value == 0.0 with
  | false => simp [base.value_power_of_nonzero zero]
  | true =>
    cases zeroth : exponent == 0.0 with
    | true =>
      rw [Number.power_zero zeroth, power, if_pos zeroth]
      simp [constant]
    | false =>
      rw [base.value_power_of_zero zero zeroth, eq_comm, Number.power_eq_self_iff zero zeroth]
      simp

end Scalar

open Dimensional.Parser Dimensional.Expression

variable {vocabulary : Vocabulary} {tokens : List Token} {grammar : Grammar}
  {tree part atom sign exponent : Expression} {quantity : Quantity}

/-- A power that is a quantity is the power of its base. -/
theorem Annotated.power_of_factor (annotated : Annotated vocabulary tokens grammar part)
    (shape : part.root.shape = .factor) (raised : part.children = [atom, sign, exponent])
    (worth : part.root.worth = .quantity quantity) :
    atom.model.power exponent.value = .ok quantity := by
  obtain rfl := annotated.grammar_eq (.inr shape) (.inr ⟨quantity, worth⟩)
  have carries := annotated.carries
  simp only [Node.Carries, shape, raised] at carries
  rcases carries with ⟨other, alone, _⟩ | ⟨base, _, number, same, _, result, power, also⟩
  · cases alone
  · cases same
    obtain rfl := Worth.quantity_inj.mp (worth.symm.trans also)
    exact power

/-- In a quantity that is read the value of a power is the power of its base's value exactly if the
base is no zero, the exponent is, or the exponent is positive and keeps the sign of the zero. A zero
that is raised to another number is left as it is. -/
theorem raised_of_read (vocabulary : Vocabulary) {source : String}
    (h : read (.standard vocabulary) .quantity source = .ok tree) (isPart : tree.Part part)
    (shape : part.root.shape = .factor) (raised : part.children = [atom, sign, exponent])
    (holds : part.root.quantity? = some quantity) :
    (quantity.value = Number.power atom.model.value exponent.value ↔
      (atom.model.value == 0.0) = false ∨ (exponent.value == 0.0) = true ∨
        (0.0 < exponent.value ∧
          (Number.isOdd exponent.value = true ∨ atom.model.value = 0.0))) ∧
    ((atom.model.value == 0.0) = true → (exponent.value == 0.0) = false →
      quantity.value = atom.model.value) := by
  obtain ⟨tokens, grammar, annotated⟩ := Annotated.of_read_part h isPart
  have power := annotated.power_of_factor shape raised (annotated.worth_eq holds)
  have value : quantity.value = (atom.model.scalar.power exponent.value).value :=
    congrArg Scalar.value (Quantity.scalar_of_power power)
  rw [value]
  exact ⟨atom.model.scalar.value_power_eq_iff exponent.value,
    atom.model.scalar.value_power_of_zero⟩

/-- The square of three meters. -/
theorem exists_square_of_known :
    ∃ (tree part atom sign exponent : Expression) (quantity : Quantity),
      read (.standard Scope.si.vocabulary) .quantity "(3 m) ** 2" = .ok tree ∧ tree.Part part ∧
      part.root.shape = .factor ∧ part.children = [atom, sign, exponent] ∧
      part.root.quantity? = some quantity ∧ atom.model.hasValue = true ∧
      quantity.value = Number.power 3.0 2.0 := by
  have accepted : ((read (.standard Scope.si.vocabulary) .quantity "(3 m) ** 2").toOption.bind
      fun tree => tree.children.head?.bind fun term => term.children.head?.map fun part =>
        (part.root.shape, part.root.quantity?.isSome,
          part.children.map fun child => (child.root.worth.toQuantity.hasValue,
            child.root.worth.toQuantity.value, child.root.worth.value))) =
      some (.factor, true, [(true, 3.0, 3.0), (false, 0.0, 0.0), (false, 0.0, 2.0)]) := by
    decide +kernel
  obtain ⟨tree, whole, found⟩ := Option.bind_eq_some_iff.mp accepted
  obtain ⟨term, ofTree, found⟩ := Option.bind_eq_some_iff.mp found
  obtain ⟨part, ofTerm, found⟩ := Option.map_eq_some_iff.mp found
  obtain ⟨shape, found⟩ := Prod.mk.inj found
  obtain ⟨some, below⟩ := Prod.mk.inj found
  have isPart : tree.Part part := by
    cases tree with
    | node root terms =>
      cases term with
      | node root factors =>
        exact .inside (List.mem_of_mem_head? ofTree) (.inside (List.mem_of_mem_head? ofTerm) .whole)
  obtain ⟨atom, sign, exponent, raised⟩ : ∃ atom sign exponent,
      part.children = [atom, sign, exponent] :=
    List.length_eq_three.mp ((List.length_map _).symm.trans (congrArg List.length below))
  simp only [raised, List.map_cons, List.cons.injEq, Prod.mk.injEq] at below
  obtain ⟨⟨known, three, _⟩, _, ⟨_, _, two⟩, _⟩ := below
  obtain ⟨quantity, holds⟩ := Option.isSome_iff_exists.mp some
  have reached := Except.toOption_eq_some.mp whole
  have value := (raised_of_read Scope.si.vocabulary reached isPart shape raised holds).1
  rw [model, Expression.value, three, two] at value
  exact ⟨tree, part, atom, sign, exponent, quantity, reached, isPart, shape, raised, holds, known,
    value.mpr (.inl (by decide +kernel))⟩

/-- Zero to the power minus one stays zero, while the number is infinite. -/
theorem exists_zero_not_raised :
    ∃ (tree part atom sign exponent : Expression) (quantity : Quantity),
      read (.standard Scope.si.vocabulary) .quantity "0 ** -1" = .ok tree ∧ tree.Part part ∧
      part.root.shape = .factor ∧ part.children = [atom, sign, exponent] ∧
      part.root.quantity? = some quantity ∧ atom.model.hasValue = true ∧ quantity.value = 0.0 ∧
      Number.power atom.model.value exponent.value = 1.0 / 0.0 ∧
      quantity.value ≠ Number.power atom.model.value exponent.value ∧
      (read (.standard Scope.si.vocabulary) .numeric "0 ** -1").toOption.map Expression.value =
        some (1.0 / 0.0) := by
  let zero (shape : Shape) : Node :=
    { shape, location := ⟨0, 1, 1⟩, worth := .quantity (.constant 0.0) }
  let minus : Expression := .leaf { shape := .negation, location := ⟨5, 1, 6⟩ }
  let one : Expression :=
    .leaf { shape := .number, location := ⟨6, 1, 7⟩, worth := .quantity (.constant 1.0) }
  let atom : Expression := .leaf (zero .number)
  let sign : Expression := .leaf { shape := .power, location := ⟨2, 1, 3⟩ }
  let exponent : Expression :=
    .node { shape := .integer, location := ⟨5, 1, 6⟩, worth := .number (-1.0) } [minus, one]
  let part : Expression := .node (zero .factor) [atom, sign, exponent]
  let tree : Expression := .node (zero (.expression .quantity)) [.node (zero .term) [part]]
  have isPart : tree.Part part := .inside List.mem_cons_self (.inside List.mem_cons_self .whole)
  have reached : (read (.standard Scope.si.vocabulary) .quantity "0 ** -1").toOption = some tree := by
    decide +kernel
  refine ⟨tree, part, atom, sign, exponent, .constant 0.0, Except.toOption_eq_some.mp reached,
    isPart, rfl, rfl, rfl, rfl, rfl, ?_, ?_, ?_⟩
  · decide +kernel
  · decide +kernel
  · decide +kernel

end Dimensional
