import Dimensional.Proofs.Quantity.Algebra
import Dimensional.Proofs.Quantity.Built

/-! What is known of the values of sums, terms, powers and vector products, whatever their dimensions
are. -/

namespace Dimensional

/-- The value of a constant is known, and a value that is not known is zero. -/
structure Scalar.IsHonest (scalar : Scalar) : Prop where
  known : scalar.isConstant = true → scalar.hasValue = true
  zero : scalar.hasValue = false → scalar.value = 0.0

namespace Scalar

variable {scalar left right : Scalar}

theorem isHonest_unknown : unknown.IsHonest := ⟨nofun, fun _ => rfl⟩

theorem isHonest_constant {value : Float} : (constant value).IsHonest := ⟨fun _ => rfl, nofun⟩

/-- Zeros add up to zero, which has no sign. -/
theorem IsHonest.add (ofLeft : left.IsHonest) (op : AddOp) (ofRight : right.IsHonest) :
    (left.add op right).IsHonest := by
  constructor
  · intro constant
    obtain ⟨first, _⟩ := Bool.and_eq_true_iff.mp constant
    exact Bool.or_eq_true_iff.mpr (.inl (ofLeft.known first))
  · intro unknown
    obtain ⟨first, second⟩ := Bool.or_eq_false_iff.mp unknown
    have values : (left.add op right).value = op.operation 0.0 0.0 := by
      rw [Scalar.add, ofLeft.zero first, ofRight.zero second]
    rw [values]
    cases op <;> decide

theorem IsHonest.power (honest : scalar.IsHonest) (exponent : Float) :
    (scalar.power exponent).IsHonest := by
  unfold Scalar.power
  by_cases zeroth : (exponent == 0.0) = true
  · rw [if_pos zeroth]
    exact isHonest_constant
  · rw [if_neg zeroth]
    refine ⟨honest.known, fun unknown => ?_⟩
    have zero := honest.zero unknown
    have isZero : (scalar.value == 0.0) = true := by
      rw [zero]
      decide
    exact (if_pos isZero).trans zero

theorem IsHonest.finish (known : scalar.isConstant = true → scalar.hasValue = true) :
    scalar.finish.IsHonest := by
  refine ⟨known, fun unknown => ?_⟩
  have unknown : scalar.hasValue = false := unknown
  rw [Scalar.finish, unknown]
  rfl

/-- Anything to the power zero is known, and otherwise what its base is. -/
theorem hasValue_power {exponent : Float} :
    (scalar.power exponent).hasValue = true ↔
      (exponent == 0.0) = true ∨ scalar.hasValue = true := by
  unfold Scalar.power
  by_cases zeroth : (exponent == 0.0) = true <;> simp [zeroth, constant]

end Scalar

namespace Quantity

variable {left right sum base raised product : Quantity} {exponent : Float}

theorem scalar_of_add {op : AddOp} (h : left.add op right = .ok sum) :
    sum.scalar = left.scalar.add op right.scalar := by
  obtain ⟨_, _, rfl⟩ := Except.map_eq_ok.mp h
  rw [Scalar.add, ← op.apply_eq_operation]
  rfl

theorem scalar_of_power (h : base.power exponent = .ok raised) :
    raised.scalar = base.scalar.power exponent := by
  unfold Quantity.power at h
  unfold Scalar.power
  by_cases zeroth : (exponent == 0.0) = true
  · rw [if_pos zeroth] at h ⊢
    split at h
    · cases h
    · cases h
      rfl
  · rw [if_neg zeroth] at h ⊢
    dsimp only at h
    split at h
    · split at h
      · obtain ⟨both, _, rfl⟩ := Except.map_eq_ok.mp h
        rfl
      · split at h <;> cases h
    · cases h
      rfl

theorem scalar_of_vectorProduct {op : VectorOp} {angle? : Option Dimension}
    (h : vectorProduct op left right angle? = .ok product) : product.scalar = .unknown := by
  unfold vectorProduct at h
  by_cases vectors : (left.isVector && right.isVector) = true
  · rw [if_pos vectors] at h
    obtain ⟨_, _, h⟩ := Except.bind_eq_ok.mp h
    obtain ⟨_, _, h⟩ := Except.bind_eq_ok.mp h
    obtain ⟨_, _, h⟩ := Except.bind_eq_ok.mp h
    obtain ⟨_, _, h⟩ := Except.bind_eq_ok.mp h
    cases op with
    | dot =>
      cases h
      rfl
    | cross =>
      cases angle? with
      | none => cases h
      | some angle =>
        obtain ⟨_, _, h⟩ := Except.bind_eq_ok.mp h
        cases h
        rfl
  · rw [if_neg vectors] at h
    cases h

end Quantity

namespace Term

variable {term after : Term} {op : MulOp} {factor first : Quantity}

theorem scalar_of_absorbDimensions (h : settled (term.absorbDimensions op factor) = .ok after) :
    after.scalar =
      { term.scalar with isConstant := term.scalar.isConstant && factor.isConstant } := by
  cases op with
  | times =>
    rw [settled_times] at h
    obtain ⟨both, _, rfl⟩ := Except.map_eq_ok.mp h
    rfl
  | «over» =>
    rw [settled_over] at h
    obtain ⟨both, _, rfl⟩ := Except.map_eq_ok.mp h
    rfl

theorem scalar_of_absorb (h : settled (term.absorb op factor) = .ok after) :
    after.scalar =
      { term.scalar with isConstant := term.scalar.isConstant && factor.isConstant } := by
  have marked : (term.marked factor).scalar = term.scalar := by
    unfold marked
    split <;> rfl
  rw [settled_absorb] at h
  split at h
  · cases h
  · rw [scalar_of_absorbDimensions h, marked]

theorem scalar_of_apply (h : settled (term.apply op factor) = .ok after) :
    after.scalar = term.scalar.multiply op factor.scalar := by
  rw [apply_eq] at h
  rw [scalar_of_absorb h]
  unfold Term.scaled Scalar.multiply Quantity.scalar
  rw [op.apply_eq_skippingZero]
  cases known : factor.hasValue <;> simp [scalar]

theorem scalar_of_ofFactor {negated : Bool} (h : ofFactor negated first = .ok term) :
    term.scalar = first.scalar.signed negated := by
  rw [ofFactor_eq] at h
  rw [scalar_of_absorb h]
  unfold Scalar.signed Quantity.scalar
  cases known : first.hasValue <;> simp [scalar, start]

/-- A term is constant if all its factors are, and its value is known if one of theirs is. -/
theorem scalar_of_applyAll {factors : List (MulOp × Quantity)}
    (h : term.applyAll factors = .ok after) :
    after.scalar.isConstant =
        (term.scalar.isConstant && factors.all fun factor => factor.2.isConstant) ∧
      after.scalar.hasValue =
        (term.scalar.hasValue || factors.any fun factor => factor.2.hasValue) := by
  induction factors generalizing term with
  | nil =>
    cases h
    simp
  | cons factor factors ih =>
    rw [applyAll, List.foldlM_cons] at h
    obtain ⟨next, applied, rest⟩ := Except.bind_eq_ok.mp h
    obtain ⟨constant, known⟩ := ih rest
    rw [constant, known, scalar_of_apply applied]
    simp [Scalar.multiply, Quantity.scalar, Bool.and_assoc, Bool.or_assoc]

end Term

end Dimensional
