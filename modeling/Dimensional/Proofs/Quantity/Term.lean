import Dimensional.Proofs.Quantity.Meets
import Dimensional.Quantity.Term

/-! Terms take in a factor exactly when the measures can be multiplied, and do the same to them. -/

namespace Dimensional

namespace Measure

/-- A measure and the dimensions of one more factor, vectors left aside. -/
def extend (measure : Measure) : MulOp → Measure → Measure
  | .times, factor =>
    { measure with above := measure.above + factor.above, below := measure.below + factor.below }
  | .over, factor =>
    { measure with above := measure.above + factor.below, below := measure.below + factor.above }

theorem multiply_eq {left right : Measure} {op : MulOp}
    (h : (left.isVector && right.isVector) = false) :
    left.multiply op right =
      (({ left with isVector := left.isVector || right.isVector } : Measure).extend op
        right).checked := by
  unfold multiply
  rw [h]
  cases op <;> rfl

theorem one_multiply {measure : Measure} :
    one.multiply .times measure = measure.checked := by
  rw [multiply_eq (by simp [one])]
  simp [extend, one]

end Measure

namespace Term

def scalar (term : Term) : Scalar := ⟨term.allConstant, term.hasNumber, term.coefficient⟩

/-- A term over a table that has a measure and a value so far. -/
structure Has (table : Table) (term : Term) (measure : Measure) (scalar : Scalar) : Prop where
  isOver : term.quantity.IsOver table
  vectors : term.vectors = if measure.isVector then 1 else 0
  measure : term.quantity.measure = measure
  scalar : term.scalar = scalar

/-- A term after an operation that did not fail. -/
def settled (outcome : Except AlgebraError Unit × Term) : Except AlgebraError Term :=
  outcome.1.map fun _ => outcome.2

variable {table : Table} {term : Term} {factor : Quantity} {measure other : Measure}
  {scalar otherScalar : Scalar}

/-- A term with other products of dimensions, after a factor was taken in. -/
def withProducts (term : Term) (factor : Quantity) (above below : Monomial) : Term :=
  { term with
    quantity := { term.quantity with numerator := above, denominator := below }
    allConstant := term.allConstant && factor.isConstant }

theorem place_times {quantity : Quantity} {dimensions : List Dimension} :
    place quantity .times dimensions =
      (quantity.numerator.append dimensions).map fun numerator => { quantity with numerator } :=
  rfl

theorem place_over {quantity : Quantity} {dimensions : List Dimension} :
    place quantity .over dimensions =
      (quantity.denominator.append dimensions).map fun denominator =>
        { quantity with denominator } :=
  rfl

theorem settled_times : settled (term.absorbDimensions .times factor) =
    Except.map (fun both : Monomial × Monomial => term.withProducts factor both.1 both.2)
      (do
        let above ← term.quantity.numerator.append factor.numerator.factors
        let below ← term.quantity.denominator.append factor.denominator.factors
        .ok (above, below)) := by
  rw [absorbDimensions, place_times]
  cases term.quantity.numerator.append factor.numerator.factors with
  | error error => rfl
  | ok above =>
    dsimp only [Except.map_of_ok, MulOp.inverse]
    rw [place_over]
    dsimp only
    cases term.quantity.denominator.append factor.denominator.factors <;> rfl

theorem settled_over : settled (term.absorbDimensions .over factor) =
    Except.map (fun both : Monomial × Monomial => term.withProducts factor both.2 both.1)
      (do
        let below ← term.quantity.denominator.append factor.numerator.factors
        let above ← term.quantity.numerator.append factor.denominator.factors
        .ok (below, above)) := by
  rw [absorbDimensions, place_over]
  cases term.quantity.denominator.append factor.numerator.factors with
  | error error => rfl
  | ok below =>
    dsimp only [Except.map_of_ok, MulOp.inverse]
    rw [place_times]
    dsimp only
    cases term.quantity.numerator.append factor.denominator.factors <;> rfl

/-- A term that has counted a factor if it is a vector. -/
def marked (term : Term) (factor : Quantity) : Term :=
  if factor.isVector then
    { term with
      vectors := term.vectors + 1, quantity := { term.quantity with isVector := true } }
  else term

/-- A term that has taken in the value of a factor if it is known. -/
def scaled (term : Term) (op : MulOp) (factor : Quantity) : Term :=
  if factor.hasValue then
    { term with coefficient := op.apply term.coefficient factor.value, hasNumber := true }
  else term

theorem settled_absorb : settled (term.absorb op factor) =
    if factor.isVector ∧ 0 < term.vectors then .error (.vectorProduct op)
    else settled ((term.marked factor).absorbDimensions op factor) := by
  unfold absorb marked
  by_cases vector : factor.isVector
  · by_cases second : 0 < term.vectors
    · simp only [vector, second, and_self, ↓reduceIte]
      rfl
    · simp [vector, second]
  · simp [vector]

theorem apply_eq : term.apply op factor = (term.scaled op factor).absorb op factor := by
  unfold apply scaled
  split <;> rfl

theorem absorbDimensions_meets (numbered : table.Numbered) (op : MulOp)
    (ofTerm : term.Has table measure scalar) (ofFactor : factor.IsOver table) :
    Meets (settled (term.absorbDimensions op factor)) (measure.extend op factor.measure).checked
      (fun after measure => after.Has table measure
        { scalar with isConstant := scalar.isConstant && factor.isConstant }) := by
  obtain ⟨isOver, vectors, rfl, rfl⟩ := ofTerm
  match op with
  | .times =>
    rw [settled_times]
    refine Meets.map (Quantity.append_both numbered isOver.numerator isOver.denominator
      ofFactor.numerator.member ofFactor.denominator.member term.quantity.isVector) ?_
    intro both measure related
    obtain ⟨above, below, rfl⟩ := related
    exact ⟨⟨above, below⟩, vectors, rfl, rfl⟩
  | .over =>
    rw [settled_over]
    have swapped : term.quantity.measure.extend .over factor.measure =
        (⟨term.quantity.denominator.factors ++ factor.numerator.factors,
          term.quantity.numerator.factors ++ factor.denominator.factors,
          term.quantity.isVector⟩ : Measure).swap := rfl
    rw [swapped, Measure.checked_swap]
    refine Meets.mapBoth (Quantity.append_both numbered isOver.denominator isOver.numerator
      ofFactor.numerator.member ofFactor.denominator.member term.quantity.isVector) ?_
    intro both measure related
    obtain ⟨below, above, rfl⟩ := related
    exact ⟨⟨above, below⟩, vectors, rfl, rfl⟩

theorem absorb_meets (numbered : table.Numbered) (op : MulOp)
    (ofTerm : term.Has table measure scalar) (ofFactor : factor.IsOver table) :
    Meets (settled (term.absorb op factor)) (measure.multiply op factor.measure)
      (fun after measure => after.Has table measure
        { scalar with isConstant := scalar.isConstant && factor.isConstant }) := by
  unfold absorb
  by_cases vector : factor.isVector = true
  · have ofVector : factor.measure.isVector = true := vector
    rw [if_pos vector]
    cases marked : measure.isVector with
    | true =>
      have counted : 0 < term.vectors := by simp [ofTerm.vectors, marked]
      have judged : measure.multiply op factor.measure = none := by
        simp [Measure.multiply, marked, ofVector]
      rw [if_pos counted, judged]
      exact .error
    | false =>
      have counted : term.vectors = 0 := by simp [ofTerm.vectors, marked]
      have first : ¬ 0 < term.vectors := by simp [counted]
      rw [if_neg first, Measure.multiply_eq (by simp [marked]), ofVector, Bool.or_true]
      refine absorbDimensions_meets numbered op ⟨?_, ?_, ?_, ofTerm.scalar⟩ ofFactor
      · exact ⟨ofTerm.isOver.numerator, ofTerm.isOver.denominator⟩
      · simp [counted]
      · rw [← ofTerm.measure]
        rfl
  · have plain : factor.measure.isVector = false := Bool.eq_false_iff.mpr vector
    rw [if_neg vector, Measure.multiply_eq (by simp [plain]), plain, Bool.or_false]
    exact absorbDimensions_meets numbered op ofTerm ofFactor

/-- A factor that is multiplied by or divided by. -/
theorem apply_meets (numbered : table.Numbered) (op : MulOp)
    (ofTerm : term.Has table measure scalar) (ofFactor : factor.Has table other otherScalar) :
    Meets (settled (term.apply op factor)) (measure.multiply op other)
      (fun after measure => after.Has table measure (scalar.multiply op otherScalar)) := by
  obtain ⟨isOver, rfl, rfl⟩ := ofFactor
  obtain ⟨termOver, vectors, rfl, rfl⟩ := ofTerm
  unfold apply
  by_cases known : factor.hasValue = true
  · have scaled : Has table { term with
        coefficient := op.apply term.coefficient factor.value, hasNumber := true }
        term.quantity.measure
        { term.scalar with value := op.apply term.coefficient factor.value, hasValue := true } :=
      ⟨termOver, vectors, rfl, rfl⟩
    have same : term.scalar.multiply op factor.scalar =
        ⟨term.allConstant && factor.isConstant, true,
          op.apply term.coefficient factor.value⟩ := by
      simp [Scalar.multiply, scalar, Quantity.scalar, known, op.apply_eq_skippingZero]
    rw [if_pos known, same]
    exact absorb_meets numbered op scaled isOver
  · have same : term.scalar.multiply op factor.scalar =
        ⟨term.allConstant && factor.isConstant, term.hasNumber, term.coefficient⟩ := by
      simp [Scalar.multiply, scalar, Quantity.scalar, known]
    rw [if_neg known, same]
    exact absorb_meets numbered op ⟨termOver, vectors, rfl, rfl⟩ isOver

/-- The first factor counts even if it is zero. -/
theorem ofFactor_eq (negated : Bool) :
    Term.ofFactor negated factor =
      settled ((if factor.hasValue then
        { start negated with
          coefficient := (start negated).coefficient * factor.value, hasNumber := true }
        else start negated).absorb .times factor) := by
  unfold Term.ofFactor settled
  dsimp only
  split <;> rename_i same <;> rw [same] <;> rfl

theorem start_has (negated : Bool) :
    (start negated).Has table .one ⟨true, false, if negated then -1.0 else 1.0⟩ :=
  ⟨⟨Monomial.isOver_one, Monomial.isOver_one⟩, rfl, rfl, rfl⟩

/-- A term of one factor has its measure. -/
theorem ofFactor_meets (numbered : table.Numbered) (negated : Bool)
    (ofFactor : factor.Has table measure scalar) :
    Meets (Term.ofFactor negated factor) (some measure)
      (fun term measure => term.Has table measure (scalar.signed negated)) := by
  obtain ⟨isOver, rfl, rfl⟩ := ofFactor
  rw [← isOver.checked, ← Measure.one_multiply]
  rw [ofFactor_eq]
  by_cases known : factor.hasValue = true
  · have scaled : Has table { start negated with
        coefficient := (start negated).coefficient * factor.value, hasNumber := true } .one
        ⟨true, true, (if negated then -1.0 else 1.0) * factor.value⟩ :=
      ⟨⟨Monomial.isOver_one, Monomial.isOver_one⟩, rfl, rfl, rfl⟩
    have same : factor.scalar.signed negated =
        ⟨true && factor.isConstant, true, (if negated then -1.0 else 1.0) * factor.value⟩ := by
      simp [Scalar.signed, Quantity.scalar, known]
    rw [if_pos known, same]
    exact absorb_meets numbered .times scaled isOver
  · have same : factor.scalar.signed negated =
        ⟨true && factor.isConstant, false, if negated then -1.0 else 1.0⟩ := by
      simp [Scalar.signed, Quantity.scalar, known]
    rw [if_neg known, same]
    exact absorb_meets numbered .times (start_has negated) isOver

theorem Has.finish (ofTerm : term.Has table measure scalar) :
    term.finish.Has table measure scalar.finish := by
  obtain ⟨isOver, vectors, rfl, rfl⟩ := ofTerm
  exact ⟨⟨isOver.numerator, isOver.denominator⟩, rfl, rfl⟩

end Term

end Dimensional
