import Dimensional.Proofs.Quantity.Algebra
import Dimensional.Proofs.Quantity.Term

/-! The quantities that operations build over a table. However they were built, their products of
primes tell their dimensions. -/

namespace Dimensional

/-- Multiply a term by some factors and divide it by others, one after another. -/
def Term.applyAll (term : Term) (factors : List (MulOp × Quantity)) : Except AlgebraError Term :=
  factors.foldlM (fun term factor => Term.settled (term.apply factor.1 factor.2)) term

/-- Quantities that are built over the dimensions of a table, which may have fewer dimensions at
first than in the end. -/
inductive Quantity.Built : Table → Quantity → Prop where
  | unknown : Built table .unknown
  | constant (value : Float) : Built table (.constant value)
  | ofDimension (member : dimension ∈ table.dimensions) : Built table (.ofDimension dimension)
  /-- Everything but the dimensions may be changed at will. -/
  | relabelled (built : Built table quantity) (above : other.numerator = quantity.numerator)
      (below : other.denominator = quantity.denominator) : Built table other
  /-- One dimension is added, or all of another quantity are copied. -/
  | multiplyNumerator (built : Built table quantity) (members : dimensions ⊆ table.dimensions)
      (h : quantity.multiplyNumerator dimensions = .ok result) : Built table result
  | multiplyDenominator (built : Built table quantity) (members : dimensions ⊆ table.dimensions)
      (h : quantity.multiplyDenominator dimensions = .ok result) : Built table result
  | add (ofLeft : Built table left) (ofRight : Built table right)
      (h : left.add op right = .ok result) : Built table result
  | term (ofFirst : Built table first) (ofFactors : ∀ factor ∈ factors, Built table factor.2)
      (begun : Term.ofFactor negated first = .ok start) (h : start.applyAll factors = .ok term) :
      Built table term.finish
  | power (ofBase : Built table base) (h : base.power exponent = .ok result) : Built table result
  | vectorProduct (ofLeft : Built table left) (ofRight : Built table right)
      (angles : ∀ angle ∈ angle?, angle ∈ table.dimensions)
      (h : Quantity.vectorProduct op left right angle? = .ok result) : Built table result
  | later (built : Built table quantity)
      (h : table.insert name symbol? = .ok (dimension, extended)) : Built extended quantity

namespace Quantity

variable {table extended : Table} {quantity left right result : Quantity}
  {dimensions : List Dimension}

/-- What an operation gives is over the table if it keeps to the measures. -/
theorem isOver_of_meets {x : Except AlgebraError Quantity} {judged : Option Measure}
    {scalar : Scalar}
    (meets : Meets x judged fun quantity measure => quantity.Has table measure scalar)
    (h : x = .ok quantity) : quantity.IsOver table := by
  obtain ⟨_, _, has⟩ := meets.of_ok h
  exact has.isOver

theorem IsOver.multiplyNumerator (numbered : table.Numbered) (isOver : quantity.IsOver table)
    (members : dimensions ⊆ table.dimensions)
    (h : quantity.multiplyNumerator dimensions = .ok result) : result.IsOver table := by
  obtain ⟨numerator, appended, rfl⟩ := Except.map_eq_ok.mp h
  exact ⟨(isOver.numerator.append numbered members appended).1, isOver.denominator⟩

theorem IsOver.multiplyDenominator (numbered : table.Numbered) (isOver : quantity.IsOver table)
    (members : dimensions ⊆ table.dimensions)
    (h : quantity.multiplyDenominator dimensions = .ok result) : result.IsOver table := by
  obtain ⟨denominator, appended, rfl⟩ := Except.map_eq_ok.mp h
  exact ⟨isOver.numerator, (isOver.denominator.append numbered members appended).1⟩

theorem IsOver.power (numbered : table.Numbered) {exponent : Float} (isOver : quantity.IsOver table)
    (h : quantity.power exponent = .ok result) : result.IsOver table := by
  cases refused : quantity.scalar.isZero && exponent == 0.0 with
  | true =>
    rw [power_zero_to_the_zero isOver.has refused] at h
    cases h
  | false => exact isOver_of_meets (power_meets numbered isOver.has refused) h

/-- Each factor keeps a term over the table. -/
theorem exists_has_of_applyAll (numbered : table.Numbered) {factors : List (MulOp × Quantity)}
    (overs : ∀ factor ∈ factors, factor.2.IsOver table) {term after : Term}
    (has : ∃ measure scalar, term.Has table measure scalar) (h : term.applyAll factors = .ok after) :
    ∃ measure scalar, after.Has table measure scalar := by
  refine Except.foldlM_preserves (p := fun term => ∃ measure scalar, term.Has table measure scalar)
    ?_ has h
  intro term factor member next has applied
  obtain ⟨measure, scalar, has⟩ := has
  obtain ⟨_, _, extended⟩ :=
    (Term.apply_meets numbered factor.1 has (overs factor member).has).of_ok applied
  exact ⟨_, _, extended⟩

/-- The products of a quantity belong to its dimensions, whatever was done to it. -/
theorem Built.isOver (built : Built table quantity) (numbered : table.Numbered) :
    quantity.IsOver table := by
  induction built with
  | unknown | constant => exact ⟨Monomial.isOver_one, Monomial.isOver_one⟩
  | ofDimension member => exact ⟨Monomial.isOver_singleton numbered member, Monomial.isOver_one⟩
  | relabelled _ above below ih =>
    have isOver := ih numbered
    exact ⟨above ▸ isOver.numerator, below ▸ isOver.denominator⟩
  | multiplyNumerator _ members h ih => exact (ih numbered).multiplyNumerator numbered members h
  | multiplyDenominator _ members h ih => exact (ih numbered).multiplyDenominator numbered members h
  | add _ _ h ihLeft ihRight =>
    exact isOver_of_meets (add_meets numbered _ (ihLeft numbered).has (ihRight numbered).has) h
  | term _ _ begun h ihFirst ihFactors =>
    obtain ⟨_, _, started⟩ :=
      (Term.ofFactor_meets numbered _ (ihFirst numbered).has).of_ok begun
    obtain ⟨_, _, has⟩ := exists_has_of_applyAll numbered
      (fun factor member => ihFactors factor member numbered) ⟨_, _, started⟩ h
    exact has.finish.isOver
  | power _ h ih => exact (ih numbered).power numbered h
  | vectorProduct _ _ angles h ihLeft ihRight =>
    exact isOver_of_meets
      (vectorProduct_meets numbered _ angles (ihLeft numbered).has (ihRight numbered).has) h
  | later _ h ih => exact (ih (numbered.of_insert h)).mono (Table.subset_of_insert h)

/-- Products of primes decide exactly whether two quantities have the same dimensions, each as
often, and whether a quantity has none. -/
theorem Built.decides_dimensions (reached : table.Reached) (ofLeft : Built table left)
    (ofRight : Built table right) :
    (left.sameDimensions right = true ↔
      left.numerator.factors.Perm right.numerator.factors ∧
        left.denominator.factors.Perm right.denominator.factors) ∧
    (left.isDimensionless = true ↔
      left.numerator.factors = [] ∧ left.denominator.factors = []) :=
  ⟨sameDimensions_iff reached.numbered (ofLeft.isOver reached.numbered)
      (ofRight.isOver reached.numbered),
    isDimensionless_iff reached.numbered (ofLeft.isOver reached.numbered)⟩

/-- Metres times seconds and seconds times metres. -/
theorem exists_sameDimensions_of_swapped :
    ∃ left right, Built .si left ∧ Built .si right ∧
      left.numerator.factors ≠ right.numerator.factors ∧ left.sameDimensions right = true ∧
        left.isDimensionless = false := by
  let meter : Dimension := ⟨"meter", some "m", 2⟩
  let second : Dimension := ⟨"second", some "s", 5⟩
  have isMeter : meter ∈ Table.si.dimensions := by simp [Table.si, meter]
  have isSecond : second ∈ Table.si.dimensions := by simp [Table.si, second]
  have onlyMeter : [meter] ⊆ Table.si.dimensions := by simpa using isMeter
  have onlySecond : [second] ⊆ Table.si.dimensions := by simpa using isSecond
  have ofLeft : Built .si { ofDimension meter with numerator := ⟨[meter, second], 10⟩ } :=
    .multiplyNumerator (.ofDimension isMeter) onlySecond rfl
  have ofRight : Built .si { ofDimension second with numerator := ⟨[second, meter], 10⟩ } :=
    .multiplyNumerator (.ofDimension isSecond) onlyMeter rfl
  have decided := Built.decides_dimensions .si ofLeft ofRight
  refine ⟨_, _, ofLeft, ofRight, by simp [meter, second], ?_, ?_⟩
  · exact decided.1.mpr ⟨.swap _ _ _, .refl _⟩
  · rw [Bool.eq_false_iff, Ne, decided.2]
    simp

end Quantity

end Dimensional
