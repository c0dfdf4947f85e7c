import Dimensional.Proofs.Quantity.Errors
import Dimensional.Proofs.Quantity.Scale

/-! A factor of unknown value that is put into a term. Terms count their vectors, and as long as
there is no second one, only a product of primes can be too large. -/

namespace Dimensional

theorem Factors.vectors_cons {factor : MulOp × Quantity} {factors : Factors} :
    Factors.vectors (factor :: factors) = Factors.vectors [factor] + factors.vectors := by
  rw [← List.singleton_append, vectors_append]

namespace Term

open Factors

variable {term after : Term} {op : MulOp} {factor first : Quantity} {factors : Factors}
  {negated : Bool}

/-- A vector is counted, and a second one is not taken in. -/
theorem vectors_of_absorb (h : settled (term.absorb op factor) = .ok after) :
    after.vectors = term.vectors + Factors.vectors [(op, factor)] ∧
      (term.vectors ≤ 1 → after.vectors ≤ 1) := by
  obtain ⟨second, above, below, _, _, rfl⟩ := settled_absorb_eq_ok.mp h
  rw [withProducts, marked_eq]
  by_cases vector : factor.isVector = true
  · have first : term.vectors = 0 := Nat.eq_zero_of_not_pos fun counted => second ⟨vector, counted⟩
    simp [Factors.vectors, vector, first]
  · simp [Factors.vectors, vector]

theorem vectors_scaled : (term.scaled op factor).vectors = term.vectors := by
  unfold Term.scaled
  split <;> rfl

theorem vectors_of_apply (h : settled (term.apply op factor) = .ok after) :
    after.vectors = term.vectors + Factors.vectors [(op, factor)] ∧
      (term.vectors ≤ 1 → after.vectors ≤ 1) := by
  rw [apply_eq] at h
  have counted := vectors_of_absorb h
  rwa [vectors_scaled] at counted

theorem vectors_of_applyAll (h : term.applyAll factors = .ok after) :
    after.vectors = term.vectors + factors.vectors ∧ (term.vectors ≤ 1 → after.vectors ≤ 1) := by
  induction factors generalizing term with
  | nil =>
    cases h
    exact ⟨rfl, id⟩
  | cons factor factors ih =>
    obtain ⟨op, factor⟩ := factor
    rw [applyAll, List.foldlM_cons] at h
    obtain ⟨next, applied, rest⟩ := Except.bind_eq_ok.mp h
    dsimp only at applied
    obtain ⟨counted, bounded⟩ := vectors_of_apply applied
    obtain ⟨all, bound⟩ := ih rest
    rw [vectors_cons]
    exact ⟨by omega, fun one => bound (bounded one)⟩

/-- The first factor is taken in by a term without vectors. -/
theorem vectors_of_ofFactor (h : ofFactor negated first = .ok term) :
    term.vectors = Factors.vectors [(.times, first)] ∧ term.vectors ≤ 1 := by
  rw [ofFactor_eq] at h
  obtain ⟨counted, bounded⟩ := vectors_of_absorb h
  rw [apply_ite Term.vectors] at counted bounded
  simp only [start, ite_self, Nat.zero_add, Nat.zero_le, true_imp_iff] at counted bounded
  exact ⟨counted, bounded⟩

theorem vectors_le_one_of_ofFactors (h : ofFactors negated first factors = .ok term) :
    Factors.vectors ((.times, first) :: factors) ≤ 1 := by
  obtain ⟨begun, started, applied⟩ := Except.bind_eq_ok.mp h
  obtain ⟨one, small⟩ := vectors_of_ofFactor started
  obtain ⟨all, bounded⟩ := vectors_of_applyAll applied
  have bound := bounded small
  rw [vectors_cons, ← one, ← all]
  exact bound

/-- Without a second vector nothing but a product can fail. -/
theorem absorb_failsOnly_of_vectors_le
    (single : term.vectors + Factors.vectors [(op, factor)] ≤ 1) :
    (settled (term.absorb op factor)).FailsOnly (· = .overflow) := by
  refine .map ?_
  by_cases none : term.vectors = 0
  · exact absorb_failsOnly_of_vectors none
  · have plain : ¬ factor.isVector = true := by
      intro vector
      have counted : Factors.vectors [(op, factor)] = 1 := by simp [Factors.vectors, vector]
      omega
    unfold absorb
    rw [if_neg plain]
    exact absorbDimensions_failsOnly

theorem applyAll_failsOnly (single : term.vectors + factors.vectors ≤ 1) :
    (term.applyAll factors).FailsOnly (· = .overflow) := by
  induction factors generalizing term with
  | nil => exact .ok
  | cons factor factors ih =>
    obtain ⟨op, factor⟩ := factor
    rw [vectors_cons] at single
    rw [applyAll, List.foldlM_cons]
    dsimp only
    cases applied : settled (term.apply op factor) with
    | error error =>
      rw [apply_eq] at applied
      refine .error error (absorb_failsOnly_of_vectors_le ?_ error applied)
      rw [vectors_scaled]
      omega
    | ok next =>
      have counted := (vectors_of_apply applied).1
      exact ih (by omega)

theorem ofFactors_failsOnly (single : Factors.vectors ((.times, first) :: factors) ≤ 1) :
    (ofFactors negated first factors).FailsOnly (· = .overflow) := by
  rw [vectors_cons] at single
  unfold ofFactors
  cases started : ofFactor negated first with
  | error error => exact .error error (ofFactor_failsOnly error started)
  | ok begun => exact applyAll_failsOnly ((vectors_of_ofFactor started).1 ▸ single)

/-- A computation of a term that overflows or comes to the value of another term. -/
def KeepsValue (term : Term) (outcome : Except AlgebraError Term) : Prop :=
  outcome = .error .overflow ∨
    ∃ other, outcome = .ok other ∧ other.finish.value = term.finish.value ∧
      other.finish.hasValue = term.finish.hasValue

/-- The coefficient and whether it counts are all that there is to a value. -/
theorem keepsValue_of {outcome : Except AlgebraError Term}
    (fails : outcome.FailsOnly (· = .overflow))
    (same : ∀ other, outcome = .ok other →
      other.coefficient = term.coefficient ∧ other.hasNumber = term.hasNumber) :
    term.KeepsValue outcome := by
  cases reached : outcome with
  | error error => exact .inl (congrArg Except.error (fails error reached))
  | ok other =>
    obtain ⟨coefficient, hasNumber⟩ := same other reached
    refine .inr ⟨other, rfl, ?_, hasNumber⟩
    change (if other.hasNumber then other.coefficient else 0.0) =
      if term.hasNumber then term.coefficient else 0.0
    rw [coefficient, hasNumber]

section Insertion

variable {inserted : Quantity} {before later : Factors}

/-- Behind the first factor an unknown factor changes no value. -/
theorem keepsValue_insert (h : ofFactors negated first (before ++ later) = .ok term)
    (unknown : inserted.hasValue = false) (plain : inserted.isVector = false) :
    term.KeepsValue (ofFactors negated first (before ++ (op, inserted) :: later)) := by
  have known : known (before ++ (op, inserted) :: later) = known (before ++ later) := by
    rw [known_append, known_append, known_cons_of_unknown unknown]
  have vectors : Factors.vectors ((.times, first) :: (before ++ (op, inserted) :: later)) =
      Factors.vectors ((.times, first) :: (before ++ later)) := by
    simp [Factors.vectors, List.countP_cons, plain]
  refine keepsValue_of (ofFactors_failsOnly ?_) fun other more => ⟨?_, ?_⟩
  · rw [vectors]
    exact vectors_le_one_of_ofFactors h
  · rw [coefficient_of_ofFactors more, coefficient_of_ofFactors h, scale_of_known_eq known]
  · rw [hasNumber_of_ofFactors more, hasNumber_of_ofFactors h, known_cons_congr known]

/-- In front of a first factor that is no zero an unknown factor changes no value. -/
theorem keepsValue_cons (h : ofFactors negated first factors = .ok term)
    (unknown : inserted.hasValue = false) (plain : inserted.isVector = false)
    (nonzero : first.hasValue = true → (first.value == 0.0) = false) :
    term.KeepsValue (ofFactors negated inserted ((.times, first) :: factors)) := by
  have vectors : Factors.vectors ((.times, inserted) :: (.times, first) :: factors) =
      Factors.vectors ((.times, first) :: factors) := by
    simp [Factors.vectors, List.countP_cons, plain]
  refine keepsValue_of (ofFactors_failsOnly ?_) fun other more => ⟨?_, ?_⟩
  · rw [vectors]
    exact vectors_le_one_of_ofFactors h
  · rw [coefficient_of_ofFactors more, coefficient_of_ofFactors h, scale_cons]
    congr 1
    -- The first factor is a right operand now, which would be passed over if it were zero.
    cases known : first.hasValue with
    | false => simp [Scalar.signed, Quantity.scalar, unknown, known]
    | true => simp [Scalar.signed, Quantity.scalar, unknown, known, skippingZero, nonzero known,
        MulOp.operation]
  · rw [hasNumber_of_ofFactors more, hasNumber_of_ofFactors h, known_cons_of_unknown unknown]

/-- A factor of unknown value that is no vector changes neither the value of a term nor whether it
is known, wherever it is put: behind the first factor with either operator, or in front of it unless
that factor is known to be zero. Products of primes may overflow. -/
theorem ofFactors_insert_unknown (h : ofFactors negated first factors = .ok term)
    (unknown : inserted.hasValue = false) (plain : inserted.isVector = false) :
    (∀ (before later : Factors) (op : MulOp), factors = before ++ later →
      term.KeepsValue (ofFactors negated first (before ++ (op, inserted) :: later))) ∧
    ((first.hasValue = true → (first.value == 0.0) = false) →
      term.KeepsValue (ofFactors negated inserted ((.times, first) :: factors))) := by
  constructor
  · rintro before later op rfl
    exact keepsValue_insert h unknown plain
  · exact keepsValue_cons h unknown plain

end Insertion

/-- A mass put into the term `-2 * 3`. -/
theorem exists_value_beside_mass :
    let mass : Quantity := .ofDimension ⟨"kilogram", some "kg", 3⟩
    ∃ term, ofFactors true (.constant 2.0) [(.times, .constant 3.0)] = .ok term ∧
      term.finish.value = -6.0 ∧ mass.hasValue = false ∧ mass.isVector = false ∧
      term.KeepsValue (ofFactors true (.constant 2.0) [(.over, mass), (.times, .constant 3.0)]) ∧
      term.KeepsValue (ofFactors true mass [(.times, .constant 2.0), (.times, .constant 3.0)]) := by
  intro mass
  obtain ⟨term, h, value⟩ : ∃ term,
      ofFactors true (.constant 2.0) [(.times, .constant 3.0)] = .ok term ∧
        term.finish.value = -6.0 := ⟨_, rfl, by decide +kernel⟩
  have unknown : mass.hasValue = false := rfl
  have plain : mass.isVector = false := rfl
  obtain ⟨behind, before⟩ := ofFactors_insert_unknown h unknown plain
  exact ⟨term, h, value, unknown, plain, behind [] _ .over rfl, before fun _ => by decide +kernel⟩

/-- In front of a zero a mass makes it a right operand, and the term `0` becomes 1. -/
theorem exists_value_changed_before_zero :
    let mass : Quantity := .ofDimension ⟨"kilogram", some "kg", 3⟩
    ∃ term other, ofFactors false (.constant 0.0) [] = .ok term ∧
      term.finish.value = 0.0 ∧ term.finish.hasValue = true ∧
      mass.hasValue = false ∧ mass.isVector = false ∧
      ofFactors false mass [(.times, .constant 0.0)] = .ok other ∧ other.finish.value = 1.0 ∧
      ¬ term.KeepsValue (ofFactors false mass [(.times, .constant 0.0)]) := by
  intro mass
  obtain ⟨term, h, zero, known⟩ : ∃ term, ofFactors false (.constant 0.0) [] = .ok term ∧
      term.finish.value = 0.0 ∧ term.finish.hasValue = true := ⟨_, rfl, by decide +kernel, rfl⟩
  obtain ⟨other, more, one⟩ : ∃ other, ofFactors false mass [(.times, .constant 0.0)] = .ok other ∧
      other.finish.value = 1.0 := ⟨_, rfl, by decide +kernel⟩
  refine ⟨term, other, h, zero, known, rfl, rfl, more, one, ?_⟩
  rintro (failed | ⟨same, reached, value, _⟩)
  · rw [more] at failed
    cases failed
  · rw [more] at reached
    cases reached
    rw [one, zero] at value
    exact absurd value (by decide +kernel)

end Term

end Dimensional
