import Dimensional.Proofs.Quantity.Meets
import Dimensional.Quantity.Algebra

/-! Sums, powers and vector products succeed exactly when they are defined on measures, and do the
same to them. -/

namespace Dimensional.Quantity

variable {table : Table} {base left right : Quantity} {measure other : Measure}
  {scalar otherScalar : Scalar} {exponent : Float}

theorem sameDimensions_iff (numbered : table.Numbered) (ofLeft : left.IsOver table)
    (ofRight : right.IsOver table) :
    left.sameDimensions right = true ↔
      left.numerator.factors.Perm right.numerator.factors ∧
        left.denominator.factors.Perm right.denominator.factors := by
  simp only [sameDimensions, Bool.and_eq_true, beq_iff_eq]
  rw [Monomial.product_eq_iff numbered ofLeft.numerator ofRight.numerator,
    Monomial.product_eq_iff numbered ofLeft.denominator ofRight.denominator]

theorem isDimensionless_iff (numbered : table.Numbered) (isOver : base.IsOver table) :
    base.isDimensionless = true ↔
      base.numerator.factors = [] ∧ base.denominator.factors = [] := by
  simp only [isDimensionless, Bool.and_eq_true, beq_iff_eq]
  rw [Monomial.product_eq_one_iff numbered isOver.numerator,
    Monomial.product_eq_one_iff numbered isOver.denominator]

theorem add_meets (numbered : table.Numbered) (op : AddOp) (ofLeft : left.Has table measure scalar)
    (ofRight : right.Has table other otherScalar) :
    Meets (left.add op right) (measure.add other)
      (fun sum measure => sum.Has table measure (scalar.add op otherScalar)) := by
  obtain ⟨leftOver, rfl, rfl⟩ := ofLeft
  obtain ⟨rightOver, rfl, rfl⟩ := ofRight
  have same : left.sameDimensions right = true ↔
      left.measure.above = right.measure.above ∧ left.measure.below = right.measure.below := by
    rw [sameDimensions_iff numbered leftOver rightOver, ← Multiset.coe_eq_coe,
      ← Multiset.coe_eq_coe]
    rfl
  unfold add ensureSameDimensions Measure.add
  by_cases agree : left.sameDimensions right = true
  · rw [if_pos agree, if_pos (same.mp agree)]
    exact .ok ⟨⟨leftOver.numerator, leftOver.denominator⟩, rfl, by rw [op.apply_eq_operation]; rfl⟩
  · rw [if_neg agree, if_neg fun both => agree (same.mpr both)]
    exact .error

theorem coe_flatten_replicate {times : Nat} {dimensions : List Dimension} :
    ((List.replicate times dimensions).flatten : Multiset Dimension) =
      times • (dimensions : Multiset Dimension) := by
  induction times with
  | zero => simp
  | succ times ih =>
    rw [List.replicate_succ, List.flatten_cons, ← Multiset.coe_add, ih, succ_nsmul']

theorem flatten_replicate_subset {times : Nat} {dimensions : List Dimension}
    (members : dimensions ⊆ table.dimensions) :
    (List.replicate times dimensions).flatten ⊆ table.dimensions := by
  intro dimension member
  obtain ⟨list, replicated, present⟩ := List.mem_flatten.mp member
  obtain ⟨_, rfl⟩ := List.mem_replicate.mp replicated
  exact members present

/-- No power above the greatest exponent stays within the bound. -/
theorem bound_le_of_maxExponent_lt (numbered : table.Numbered) {dimensions : List Dimension}
    (members : dimensions ⊆ table.dimensions) (some : dimensions ≠ []) {times : Nat}
    (large : maxExponent < times) :
    Monomial.bound ≤ primeProduct (List.replicate times dimensions).flatten := by
  rw [primeProduct_flatten_replicate]
  have base := Nat.pow_le_pow_left (Monomial.two_le_primeProduct numbered members some) times
  have exponent : 2 ^ 128 ≤ 2 ^ times := Nat.pow_le_pow_right Nat.two_pos large
  exact Nat.le_trans exponent base

/-- All copies of the dimensions, on the side where they were. -/
def copies (base : Quantity) (times : Nat) : Measure :=
  ⟨(List.replicate times base.numerator.factors).flatten,
    (List.replicate times base.denominator.factors).flatten, base.isVector⟩

theorem repeated_measure {times : Int} :
    base.measure.repeated times =
      if times < 0 then (base.copies times.natAbs).swap else base.copies times.natAbs := by
  simp only [Measure.repeated, copies, coe_flatten_replicate, measure]

/-- Some dimension is there to be repeated. -/
theorem not_fits_copies (numbered : table.Numbered) (isOver : base.IsOver table)
    (dimensioned : base.isDimensioned = true) {times : Nat} (large : maxExponent < times) :
    ¬ (base.copies times).Fits := by
  intro fits
  obtain ⟨above, below⟩ := Measure.fits_iff.mp fits
  simp only [isDimensioned, Bool.or_eq_true, Bool.not_eq_true', List.isEmpty_eq_false_iff]
    at dimensioned
  rcases dimensioned with some | some
  · exact Nat.not_lt.mpr
      (bound_le_of_maxExponent_lt numbered isOver.numerator.member some large) above
  · exact Nat.not_lt.mpr
      (bound_le_of_maxExponent_lt numbered isOver.denominator.member some large) below

/-- Both products of a quantity, repeated. -/
def repeatedBoth (base : Quantity) (times : Nat) : Except AlgebraError (Monomial × Monomial) := do
  let numerator ← repeated base.numerator times
  let denominator ← repeated base.denominator times
  .ok (numerator, denominator)

theorem raisedDimensions_eq {times : Int} :
    base.raisedDimensions times =
      if maxExponent < times.natAbs then .error .overflow
      else if times < 0 then (base.repeatedBoth times.natAbs).map Prod.swap
      else base.repeatedBoth times.natAbs := by
  unfold raisedDimensions
  by_cases large : maxExponent < times.natAbs
  · rw [if_pos large, if_pos large]
    rfl
  · rw [if_neg large, if_neg large]
    by_cases negative : times < 0
    · simp only [if_pos negative, repeatedBoth]
      cases repeated base.numerator times.natAbs with
      | error error => rfl
      | ok numerator => cases repeated base.denominator times.natAbs <;> rfl
    · simp only [if_neg negative]
      rfl

theorem repeatedBoth_meets (numbered : table.Numbered) (isOver : base.IsOver table) (times : Nat) :
    Meets (base.repeatedBoth times) (base.copies times).checked
      (fun both measure => both.1.IsOver table ∧ both.2.IsOver table ∧
        measure = ⟨both.1.factors, both.2.factors, base.isVector⟩) :=
  append_both numbered Monomial.isOver_one Monomial.isOver_one
    (flatten_replicate_subset isOver.numerator.member)
    (flatten_replicate_subset isOver.denominator.member) base.isVector

/-- Exponents that are too large would not fit anyway. -/
theorem checked_repeated (numbered : table.Numbered) (isOver : base.IsOver table)
    (dimensioned : base.isDimensioned = true) {times : Int} (large : maxExponent < times.natAbs) :
    (base.measure.repeated times).checked = none := by
  have unfit : (base.copies times.natAbs).checked = none :=
    if_neg (not_fits_copies numbered isOver dimensioned large)
  rw [repeated_measure]
  by_cases negative : times < 0
  · rw [if_pos negative, Measure.checked_swap, unfit]
    rfl
  · rw [if_neg negative, unfit]

theorem raisedDimensions_meets (numbered : table.Numbered) (isOver : base.IsOver table)
    (dimensioned : base.isDimensioned = true) (times : Int) :
    Meets (base.raisedDimensions times) (base.measure.repeated times).checked
      (fun both measure => both.1.IsOver table ∧ both.2.IsOver table ∧
        measure = ⟨both.1.factors, both.2.factors, base.isVector⟩) := by
  rw [raisedDimensions_eq]
  by_cases large : maxExponent < times.natAbs
  -- Powers above the greatest exponent are refused unseen, but would not fit either.
  · rw [if_pos large, checked_repeated numbered isOver dimensioned large]
    exact .error
  · have meets := repeatedBoth_meets numbered isOver times.natAbs
    rw [if_neg large, repeated_measure]
    by_cases negative : times < 0
    · rw [if_pos negative, if_pos negative, Measure.checked_swap]
      refine meets.mapBoth ?_
      intro both measure related
      obtain ⟨above, below, rfl⟩ := related
      exact ⟨below, above, rfl⟩
    · rw [if_neg negative, if_neg negative]
      exact meets

/-- Zero to the zero is the only power that depends on a value. -/
theorem power_zero_to_the_zero (ofBase : base.Has table measure scalar)
    (h : (scalar.isZero && exponent == 0.0) = true) :
    base.power exponent = .error .zeroToTheZero := by
  obtain ⟨_, _, rfl⟩ := ofBase
  obtain ⟨isZero, zero⟩ := Bool.and_eq_true_iff.mp h
  unfold power
  rw [if_pos zero]
  exact if_pos isZero

theorem power_meets (numbered : table.Numbered) (ofBase : base.Has table measure scalar)
    (h : (scalar.isZero && exponent == 0.0) = false) :
    Meets (base.power exponent) (measure.power exponent)
      (fun raised measure => raised.Has table measure (scalar.power exponent)) := by
  obtain ⟨isOver, rfl, rfl⟩ := ofBase
  unfold power Measure.power Scalar.power
  by_cases zero : (exponent == 0.0) = true
  · have plain : ¬ (base.isConstant && base.value == 0.0) = true := by
      intro isZero
      have both : (base.scalar.isZero && exponent == 0.0) = true := by
        rw [zero, Bool.and_true]
        exact isZero
      rw [both] at h
      cases h
    rw [if_pos zero, if_pos zero, if_pos zero, if_neg plain]
    exact .ok ⟨⟨Monomial.isOver_one, Monomial.isOver_one⟩, rfl, rfl⟩
  · rw [if_neg zero, if_neg zero, if_neg zero]
    have noDimensions : base.measure.above = 0 ∧ base.measure.below = 0 ↔
        base.isDimensioned = false := by
      simp [measure, isDimensioned]
    cases dimensioned : base.isDimensioned with
    | false =>
      obtain ⟨above, below⟩ := noDimensions.mpr dimensioned
      rw [if_pos (noDimensions.mpr dimensioned), if_neg Bool.false_ne_true]
      refine .ok ⟨⟨Monomial.isOver_one, Monomial.isOver_one⟩, ?_, rfl⟩
      exact congrArg₂ (Measure.mk · · base.isVector) above.symm below.symm
    | true =>
      have some : ¬ (base.measure.above = 0 ∧ base.measure.below = 0) := by
        rw [noDimensions, dimensioned]
        exact Bool.noConfusion
      rw [if_neg some, if_pos rfl, Number.whole?_eq_toInt?]
      cases Number.toInt? exponent with
      | none =>
        by_cases infinite : Number.isInfinite exponent = true
        · simp only [if_pos infinite]
          exact .error
        · simp only [if_neg infinite]
          exact .error
      | some times =>
        refine (raisedDimensions_meets numbered isOver dimensioned times).map ?_
        intro both measure related
        obtain ⟨above, below, rfl⟩ := related
        exact ⟨⟨above, below⟩, rfl, rfl⟩

/-- A vector product takes in the dimensions of one operand after the other. -/
theorem dot_eq (numbered : table.Numbered) (isOver : left.IsOver table)
    (vectors : (left.isVector && right.isVector) = true) (angle? : Option Dimension) :
    vectorProduct .dot left right angle? =
      Except.map (fun both : Monomial × Monomial =>
        { unknown with numerator := both.1, denominator := both.2 })
        (do
          let above ← left.numerator.append right.numerator.factors
          let below ← left.denominator.append right.denominator.factors
          .ok (above, below)) := by
  unfold vectorProduct
  rw [if_pos vectors, Monomial.one_append numbered isOver.numerator,
    Monomial.one_append numbered isOver.denominator]
  change (left.numerator.append right.numerator.factors >>= _) = _
  cases left.numerator.append right.numerator.factors with
  | error error => rfl
  | ok above =>
    change (left.denominator.append right.denominator.factors >>= _) = _
    cases left.denominator.append right.denominator.factors <;> rfl

theorem cross_eq (numbered : table.Numbered) (ofLeft : left.IsOver table)
    (ofRight : right.IsOver table) (vectors : (left.isVector && right.isVector) = true)
    {angle : Dimension} (single : [angle] ⊆ table.dimensions) :
    vectorProduct .cross left right (some angle) =
      Except.map (fun both : Monomial × Monomial =>
        { unknown with numerator := both.1, denominator := both.2, isVector := true })
        (do
          let above ← left.numerator.append right.numerator.factors
          let below ← left.denominator.append (right.denominator.factors ++ [angle])
          .ok (above, below)) := by
  unfold vectorProduct
  rw [if_pos vectors, Monomial.one_append numbered ofLeft.numerator,
    Monomial.one_append numbered ofLeft.denominator,
    ← Monomial.append_append numbered ofLeft.denominator ofRight.denominator.member single]
  change (left.numerator.append right.numerator.factors >>= _) = _
  cases left.numerator.append right.numerator.factors with
  | error error => rfl
  | ok above =>
    change (left.denominator.append right.denominator.factors >>= _) = _
    cases left.denominator.append right.denominator.factors with
    | error error => rfl
    | ok below =>
      change (below.append [angle] >>= _) = Except.map _ (below.append [angle] >>= _)
      cases below.append [angle] <;> rfl

theorem cross_without_angle : ∃ error, vectorProduct .cross left right none = .error error := by
  unfold vectorProduct
  by_cases vectors : (left.isVector && right.isVector) = true
  · rw [if_pos vectors]
    exact Except.exists_error_bind fun _ => Except.exists_error_bind fun _ =>
      Except.exists_error_bind fun _ => Except.exists_error_bind fun _ => ⟨_, rfl⟩
  · rw [if_neg vectors]
    exact ⟨_, rfl⟩

theorem vectorProduct_meets (numbered : table.Numbered) (op : VectorOp) {angle? : Option Dimension}
    (angles : ∀ angle ∈ angle?, angle ∈ table.dimensions)
    (ofLeft : left.Has table measure scalar) (ofRight : right.Has table other otherScalar) :
    Meets (vectorProduct op left right angle?) (measure.vectorProduct op other angle?)
      (fun product measure => product.Has table measure .unknown) := by
  obtain ⟨leftOver, rfl, rfl⟩ := ofLeft
  obtain ⟨rightOver, rfl, rfl⟩ := ofRight
  by_cases vectors : (left.isVector && right.isVector) = true
  · have both : (left.measure.isVector && right.measure.isVector) = true := vectors
    unfold Measure.vectorProduct
    rw [if_pos both]
    cases op with
    | dot =>
      rw [dot_eq numbered leftOver vectors]
      refine Meets.map (append_both numbered leftOver.numerator leftOver.denominator
        rightOver.numerator.member rightOver.denominator.member false) ?_
      intro both measure related
      obtain ⟨above, below, rfl⟩ := related
      exact ⟨⟨above, below⟩, rfl, rfl⟩
    | cross =>
      cases angle? with
      | none => exact ⟨nofun, fun _ => cross_without_angle⟩
      | some angle =>
        have single : [angle] ⊆ table.dimensions := by simpa using angles angle rfl
        have lowers : right.denominator.factors ++ [angle] ⊆ table.dimensions :=
          List.append_subset.mpr ⟨rightOver.denominator.member, single⟩
        have judged : (left.measure.union right.measure).union (Measure.ofDimension angle).swap =
            ⟨left.numerator.factors ++ right.numerator.factors,
              left.denominator.factors ++ (right.denominator.factors ++ [angle]), true⟩ := by
          simp only [Bool.and_eq_true] at vectors
          simp [Measure.union, Measure.swap, Measure.ofDimension, measure, vectors,
            ← Multiset.coe_add, add_assoc]
        rw [cross_eq numbered leftOver rightOver vectors single, Option.bind_some, judged]
        refine Meets.map (append_both numbered leftOver.numerator leftOver.denominator
          rightOver.numerator.member lowers true) ?_
        intro both measure related
        obtain ⟨above, below, rfl⟩ := related
        exact ⟨⟨above, below⟩, rfl, rfl⟩
  · have some : ¬ (left.measure.isVector && right.measure.isVector) = true := vectors
    unfold vectorProduct Measure.vectorProduct
    rw [if_neg vectors, if_neg some]
    exact .error

end Dimensional.Quantity
