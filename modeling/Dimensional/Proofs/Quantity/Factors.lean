import Dimensional.Proofs.Quantity.Known

/-! Terms multiply out to the dimensions of their factors in the order of the factors. Whether they
do, and what they come to apart from that order, depends on no order. -/

namespace Dimensional

/-- Some dimensions with the product of their primes. -/
def Monomial.of (dimensions : List Dimension) : Monomial := ⟨dimensions, primeProduct dimensions⟩

/-- The dimensions that a factor puts above the line. -/
def MulOp.above : MulOp → Quantity → List Dimension
  | .times, factor => factor.numerator.factors
  | .over, factor => factor.denominator.factors

/-- The dimensions that a factor puts below the line. -/
def MulOp.below : MulOp → Quantity → List Dimension
  | .times, factor => factor.denominator.factors
  | .over, factor => factor.numerator.factors

/-- Factors, each behind its operator. -/
abbrev Factors : Type := List (MulOp × Quantity)

namespace Factors

def above (factors : Factors) : List Dimension :=
  factors.flatMap fun factor => factor.1.above factor.2

def below (factors : Factors) : List Dimension :=
  factors.flatMap fun factor => factor.1.below factor.2

def vectors (factors : Factors) : Nat := factors.countP fun factor => factor.2.isVector

def AreOver (table : Table) (factors : Factors) : Prop :=
  ∀ factor ∈ factors, factor.2.IsOver table

/-- Factors that a term can take in: one vector at most, and products of primes within their
bound. -/
structure Multiply (factors : Factors) : Prop where
  vectors : factors.vectors ≤ 1
  above : primeProduct factors.above < 2 ^ 128
  below : primeProduct factors.below < 2 ^ 128

instance (factors : Factors) : Decidable factors.Multiply :=
  decidable_of_iff
    (factors.vectors ≤ 1 ∧ primeProduct factors.above < 2 ^ 128 ∧
      primeProduct factors.below < 2 ^ 128)
    ⟨fun ⟨vectors, above, below⟩ => ⟨vectors, above, below⟩,
      fun multiply => ⟨multiply.vectors, multiply.above, multiply.below⟩⟩

def multiplied? (factors : Factors) : Option Factors :=
  if factors.Multiply then some factors else none

variable {table : Table} {factors others rest : Factors} {factor : MulOp × Quantity}

@[simp] theorem above_append : above (factors ++ others) = factors.above ++ others.above := by
  simp [above]

@[simp] theorem below_append : below (factors ++ others) = factors.below ++ others.below := by
  simp [below]

@[simp] theorem vectors_append :
    vectors (factors ++ others) = factors.vectors + others.vectors := by
  simp [vectors]

theorem AreOver.subset (overs : factors.AreOver table) :
    factors.above ⊆ table.dimensions ∧ factors.below ⊆ table.dimensions := by
  constructor
  · intro dimension member
    obtain ⟨⟨op, factor⟩, present, placed⟩ := List.mem_flatMap.mp member
    have isOver := overs _ present
    cases op with
    | times => exact isOver.numerator.member placed
    | «over» => exact isOver.denominator.member placed
  · intro dimension member
    obtain ⟨⟨op, factor⟩, present, placed⟩ := List.mem_flatMap.mp member
    have isOver := overs _ present
    cases op with
    | times => exact isOver.denominator.member placed
    | «over» => exact isOver.numerator.member placed

theorem AreOver.append (overs : factors.AreOver table) (more : others.AreOver table) :
    AreOver table (factors ++ others) :=
  List.forall_mem_append.mpr ⟨overs, more⟩

/-- What is too much already is not mended by further factors. -/
theorem Multiply.of_append (numbered : table.Numbered) (overs : others.AreOver table)
    (multiply : Multiply (factors ++ others)) : factors.Multiply := by
  have positive (dimensions : List Dimension) (members : dimensions ⊆ table.dimensions) :
      0 < primeProduct dimensions :=
    primeProduct_pos fun dimension member => (numbered.prime dimension (members member)).pos
  obtain ⟨vectors, above, below⟩ := multiply
  rw [above_append, primeProduct_append] at above
  rw [below_append, primeProduct_append] at below
  rw [vectors_append] at vectors
  exact ⟨by omega,
    Nat.lt_of_le_of_lt (Nat.le_mul_of_pos_right _ (positive _ overs.subset.1)) above,
    Nat.lt_of_le_of_lt (Nat.le_mul_of_pos_right _ (positive _ overs.subset.2)) below⟩

section Permutation

variable (same : factors.Perm others)

include same

theorem perm_above : factors.above.Perm others.above := same.flatMap_right _

theorem perm_below : factors.below.Perm others.below := same.flatMap_right _

theorem primeProduct_above_of_perm : primeProduct factors.above = primeProduct others.above :=
  ((perm_above same).map Dimension.prime).prod_eq

theorem primeProduct_below_of_perm : primeProduct factors.below = primeProduct others.below :=
  ((perm_below same).map Dimension.prime).prod_eq

theorem Multiply.of_perm (multiply : factors.Multiply) : others.Multiply := by
  refine ⟨?_, ?_, ?_⟩
  · rw [Factors.vectors, ← same.countP_eq]
    exact multiply.vectors
  · rw [← primeProduct_above_of_perm same]
    exact multiply.above
  · rw [← primeProduct_below_of_perm same]
    exact multiply.below

end Permutation

end Factors

namespace Term

open Factors

variable {table : Table} {term : Term} {op : MulOp} {factor first : Quantity} {factors : Factors}

/-- Both products grow, or neither does. -/
theorem append_both_eq (numbered : table.Numbered) {above below : Monomial}
    (ofAbove : above.IsOver table) (ofBelow : below.IsOver table) {upper lower : List Dimension}
    (uppers : upper ⊆ table.dimensions) (lowers : lower ⊆ table.dimensions) :
    (do
      let above ← above.append upper
      let below ← below.append lower
      .ok (above, below)) =
    if primeProduct (above.factors ++ upper) < Monomial.bound ∧
        primeProduct (below.factors ++ lower) < Monomial.bound then
      .ok (Monomial.of (above.factors ++ upper), Monomial.of (below.factors ++ lower))
    else .error AlgebraError.overflow := by
  rw [Monomial.append_eq numbered ofAbove uppers, Monomial.append_eq numbered ofBelow lowers]
  by_cases aboveFits : primeProduct (above.factors ++ upper) < Monomial.bound
  · by_cases belowFits : primeProduct (below.factors ++ lower) < Monomial.bound
    · rw [if_pos aboveFits, if_pos belowFits, if_pos ⟨aboveFits, belowFits⟩]
      rfl
    · rw [if_pos aboveFits, if_neg belowFits, if_neg fun both => belowFits both.2]
      rfl
  · have unfit : ¬ (primeProduct (above.factors ++ upper) < Monomial.bound ∧
        primeProduct (below.factors ++ lower) < Monomial.bound) := fun both => aboveFits both.1
    rw [if_neg aboveFits, if_neg unfit]
    rfl

/-- Both products of a term grow, or there is an overflow. -/
theorem settled_absorbDimensions (numbered : table.Numbered) (ofTerm : term.quantity.IsOver table)
    (isOver : factor.IsOver table) :
    settled (term.absorbDimensions op factor) =
      let above := term.quantity.numerator.factors ++ op.above factor
      let below := term.quantity.denominator.factors ++ op.below factor
      if primeProduct above < Monomial.bound ∧ primeProduct below < Monomial.bound then
        .ok (term.withProducts factor (.of above) (.of below))
      else .error .overflow := by
  dsimp only
  cases op with
  | times =>
    rw [settled_times, append_both_eq numbered ofTerm.numerator ofTerm.denominator
      isOver.numerator.member isOver.denominator.member, apply_ite (Except.map _)]
    rfl
  | «over» =>
    rw [settled_over, append_both_eq numbered ofTerm.denominator ofTerm.numerator
      isOver.numerator.member isOver.denominator.member, apply_ite (Except.map _)]
    exact if_congr and_comm rfl rfl

/-- What a term is after some factors, apart from what is known of its value. -/
structure Took (table : Table) (term : Term) (factors : Factors) : Prop where
  overs : factors.AreOver table
  multiply : factors.Multiply
  numerator : term.quantity.numerator = .of factors.above
  denominator : term.quantity.denominator = .of factors.below
  vectors : term.vectors = factors.vectors
  isVector : term.quantity.isVector = factors.any fun factor => factor.2.isVector
  identifier? : term.quantity.identifier? = none

theorem took_start {negated : Bool} : (start negated).Took table [] where
  overs := nofun
  multiply := by decide
  numerator := rfl
  denominator := rfl
  vectors := rfl
  isVector := rfl
  identifier? := rfl

theorem Took.isOver (took : term.Took table factors) : term.quantity.IsOver table := by
  constructor
  · rw [took.numerator]
    exact ⟨took.overs.subset.1, rfl, took.multiply.above⟩
  · rw [took.denominator]
    exact ⟨took.overs.subset.2, rfl, took.multiply.below⟩

theorem Took.scaled (took : term.Took table factors) : (term.scaled op factor).Took table factors := by
  unfold Term.scaled
  split
  · exact ⟨took.overs, took.multiply, took.numerator, took.denominator, took.vectors, took.isVector,
      took.identifier?⟩
  · exact took

theorem marked_eq : term.marked factor =
    { term with
      vectors := term.vectors + (if factor.isVector then 1 else 0)
      quantity := { term.quantity with isVector := term.quantity.isVector || factor.isVector } } := by
  unfold marked
  by_cases vector : factor.isVector <;> simp [vector]

/-- All that taking in a factor without its value can do: a second vector is refused, and both
products grow. -/
theorem settled_absorb_eq_ok {after : Term} : settled (term.absorb op factor) = .ok after ↔
    ¬ (factor.isVector ∧ 0 < term.vectors) ∧
      ∃ above below, term.quantity.numerator.append (op.above factor) = .ok above ∧
        term.quantity.denominator.append (op.below factor) = .ok below ∧
        after = (term.marked factor).withProducts factor above below := by
  have taken : settled ((term.marked factor).absorbDimensions op factor) = .ok after ↔
      ∃ above below, term.quantity.numerator.append (op.above factor) = .ok above ∧
        term.quantity.denominator.append (op.below factor) = .ok below ∧
        after = (term.marked factor).withProducts factor above below := by
    rw [marked_eq]
    cases op with
    | times =>
      rw [settled_times, Except.map_eq_ok]
      simp only [Except.both_eq_ok]
      constructor
      · rintro ⟨both, ⟨first, second⟩, rfl⟩
        exact ⟨both.1, both.2, first, second, rfl⟩
      · rintro ⟨above, below, first, second, rfl⟩
        exact ⟨(above, below), ⟨first, second⟩, rfl⟩
    | «over» =>
      rw [settled_over, Except.map_eq_ok]
      simp only [Except.both_eq_ok]
      constructor
      · rintro ⟨both, ⟨first, second⟩, rfl⟩
        exact ⟨both.2, both.1, second, first, rfl⟩
      · rintro ⟨above, below, first, second, rfl⟩
        exact ⟨(below, above), ⟨second, first⟩, rfl⟩
  rw [settled_absorb]
  by_cases second : factor.isVector ∧ 0 < term.vectors
  · rw [if_pos second]
    exact ⟨nofun, fun all => absurd second all.1⟩
  · rw [if_neg second, taken]
    exact ⟨fun some => ⟨second, some⟩, fun all => all.2⟩

theorem settled_marked (numbered : table.Numbered) (ofTerm : term.quantity.IsOver table)
    (isOver : factor.IsOver table) :
    settled ((term.marked factor).absorbDimensions op factor) =
      let above := term.quantity.numerator.factors ++ op.above factor
      let below := term.quantity.denominator.factors ++ op.below factor
      if primeProduct above < Monomial.bound ∧ primeProduct below < Monomial.bound then
        .ok ((term.marked factor).withProducts factor (.of above) (.of below))
      else .error .overflow := by
  rw [marked_eq]
  exact settled_absorbDimensions numbered ⟨ofTerm.numerator, ofTerm.denominator⟩ isOver

/-- One more factor is taken in exactly if all of them together can be. -/
theorem Took.absorb (numbered : table.Numbered) (op : MulOp) (took : term.Took table factors)
    (isOver : factor.IsOver table) :
    Meets (settled (term.absorb op factor)) (multiplied? (factors ++ [(op, factor)]))
      fun after factors => after.Took table factors := by
  have above : Factors.above (factors ++ [(op, factor)]) =
      term.quantity.numerator.factors ++ op.above factor := by
    simp [took.numerator, Monomial.of, Factors.above]
  have below : Factors.below (factors ++ [(op, factor)]) =
      term.quantity.denominator.factors ++ op.below factor := by
    simp [took.denominator, Monomial.of, Factors.below]
  have vectors : Factors.vectors (factors ++ [(op, factor)]) =
      term.vectors + if factor.isVector then 1 else 0 := by
    simp [took.vectors, Factors.vectors, List.countP_cons]
  have overs : AreOver table (factors ++ [(op, factor)]) :=
    took.overs.append (List.forall_mem_singleton.mpr isOver)
  rw [settled_absorb, multiplied?]
  by_cases second : factor.isVector ∧ 0 < term.vectors
  · have refused : ¬ Multiply (factors ++ [(op, factor)]) := by
      intro multiply
      have one := multiply.vectors
      rw [vectors, if_pos second.1] at one
      omega
    rw [if_pos second, if_neg refused]
    exact .error
  · have one : Factors.vectors (factors ++ [(op, factor)]) ≤ 1 := by
      have before := took.multiply.vectors
      rw [← took.vectors] at before
      rw [vectors]
      split
      · rename_i vector
        have none : ¬ 0 < term.vectors := fun counted => second ⟨vector, counted⟩
        omega
      · exact before
    rw [if_neg second, settled_marked numbered took.isOver isOver, ← above, ← below]
    dsimp only
    by_cases fits : primeProduct (Factors.above (factors ++ [(op, factor)])) < Monomial.bound ∧
        primeProduct (Factors.below (factors ++ [(op, factor)])) < Monomial.bound
    · have multiply : Multiply (factors ++ [(op, factor)]) := ⟨one, fits.1, fits.2⟩
      rw [if_pos fits, if_pos multiply, marked_eq]
      refine .ok ⟨overs, multiply, rfl, rfl, vectors.symm, ?_, took.identifier?⟩
      simp [withProducts, took.isVector]
    · have refused : ¬ Multiply (factors ++ [(op, factor)]) :=
        fun multiply => fits ⟨multiply.above, multiply.below⟩
      rw [if_neg fits, if_neg refused]
      exact .error

theorem Took.apply (numbered : table.Numbered) (op : MulOp) (took : term.Took table factors)
    (isOver : factor.IsOver table) :
    Meets (settled (term.apply op factor)) (multiplied? (factors ++ [(op, factor)]))
      fun after factors => after.Took table factors := by
  rw [apply_eq]
  exact took.scaled.absorb numbered op isOver

/-- Some factors are taken in first, and then the others: further factors mend nothing that is too
much already. -/
theorem meets_further (numbered : table.Numbered) {more : Factors} (overs : more.AreOver table)
    {begun : Except AlgebraError Term} {further : Term → Except AlgebraError Term}
    (first : Meets begun (multiplied? factors) fun term all => term.Took table all)
    (next : ∀ term, term.Took table factors →
      Meets (further term) (multiplied? (factors ++ more)) fun term all => term.Took table all) :
    Meets (begun >>= further) (multiplied? (factors ++ more)) fun term all =>
      term.Took table all := by
  by_cases multiply : factors.Multiply
  · rw [multiplied?, if_pos multiply] at first
    obtain ⟨term, rfl, took⟩ := first.1 _ rfl
    exact next term took
  · rw [multiplied?, if_neg multiply] at first
    obtain ⟨error, rfl⟩ := first.2 rfl
    have refused : ¬ Multiply (factors ++ more) := fun all => multiply (all.of_append numbered overs)
    rw [multiplied?, if_neg refused]
    exact .error

/-- One factor after the other is taken in exactly if all of them together can be. -/
theorem Took.applyAll (numbered : table.Numbered) (took : term.Took table factors) {more : Factors}
    (overs : more.AreOver table) :
    Meets (term.applyAll more) (multiplied? (factors ++ more)) fun after all =>
      after.Took table all := by
  induction more generalizing term factors with
  | nil =>
    rw [List.append_nil, multiplied?, if_pos took.multiply]
    exact .ok took
  | cons factor more ih =>
    obtain ⟨op, factor⟩ := factor
    obtain ⟨isOver, others⟩ := List.forall_mem_cons.mp overs
    rw [Term.applyAll, List.foldlM_cons, List.append_cons]
    exact meets_further numbered others (took.apply numbered op isOver) fun after later =>
      ih later others

/-- The first factor is multiplied by without an operator. -/
theorem ofFactor_took (numbered : table.Numbered) (negated : Bool) (isOver : first.IsOver table) :
    Meets (ofFactor negated first) (multiplied? [(.times, first)]) fun term all =>
      term.Took table all := by
  rw [ofFactor_eq]
  refine (?_ : Took table _ []).absorb numbered .times isOver
  split
  · exact ⟨nofun, by decide, rfl, rfl, rfl, rfl, rfl⟩
  · exact took_start

/-- A term of some factors, the first of which has no operator. -/
def ofFactors (negated : Bool) (first : Quantity) (factors : Factors) : Except AlgebraError Term := do
  (← ofFactor negated first).applyAll factors

theorem ofFactors_took (numbered : table.Numbered) (negated : Bool)
    (overs : AreOver table ((.times, first) :: factors)) :
    Meets (ofFactors negated first factors) (multiplied? ((.times, first) :: factors))
      fun term all => term.Took table all := by
  obtain ⟨ofFirst, others⟩ := List.forall_mem_cons.mp overs
  exact meets_further numbered others (ofFactor_took numbered negated ofFirst) fun term took =>
    took.applyAll numbered others

/-- What is known of a term is known by its factors, whatever their dimensions are. -/
theorem scalar_of_ofFactors {negated : Bool} (h : ofFactors negated first factors = .ok term) :
    (term.scalar.isConstant = ((.times, first) :: factors).all fun factor => factor.2.isConstant) ∧
      term.scalar.hasValue = ((.times, first) :: factors).any fun factor => factor.2.hasValue := by
  obtain ⟨begun, started, applied⟩ := Except.bind_eq_ok.mp h
  obtain ⟨constant, known⟩ := scalar_of_applyAll applied
  rw [scalar_of_ofFactor started] at constant known
  exact ⟨constant, known⟩

end Term

namespace Factors

variable {table : Table} {factors others : Factors}

/-- What factors multiply out to, the value left aside. -/
structure MultiplyTo (factors : Factors) (product : Quantity) : Prop where
  numerator : product.numerator.factors = factors.above
  denominator : product.denominator.factors = factors.below
  isVector : product.isVector = true ↔ ∃ factor ∈ factors, factor.2.isVector = true
  isConstant : product.isConstant = true ↔ ∀ factor ∈ factors, factor.2.isConstant = true
  hasValue : product.hasValue = true ↔ ∃ factor ∈ factors, factor.2.hasValue = true
  identifier? : product.identifier? = none

theorem multiplyTo_finish {term : Term} (took : term.Took table factors)
    (constant : term.scalar.isConstant = factors.all fun factor => factor.2.isConstant)
    (known : term.scalar.hasValue = factors.any fun factor => factor.2.hasValue) :
    factors.MultiplyTo term.finish where
  numerator := congrArg Monomial.factors took.numerator
  denominator := congrArg Monomial.factors took.denominator
  isVector := by
    change term.quantity.isVector = true ↔ _
    rw [took.isVector, List.any_eq_true]
  isConstant := by
    change term.scalar.isConstant = true ↔ _
    rw [constant, List.all_eq_true]
  hasValue := by
    change term.scalar.hasValue = true ↔ _
    rw [known, List.any_eq_true]
  identifier? := took.identifier?

/-- No order can be told from the flags. -/
theorem MultiplyTo.flags_eq {product other : Quantity} (multiply : factors.MultiplyTo product)
    (more : others.MultiplyTo other) (same : factors.Perm others) :
    product.isVector = other.isVector ∧ product.isConstant = other.isConstant ∧
      product.hasValue = other.hasValue := by
  refine ⟨?_, ?_, ?_⟩
  · rw [Bool.eq_iff_iff, multiply.isVector, more.isVector]
    simp only [same.mem_iff]
  · rw [Bool.eq_iff_iff, multiply.isConstant, more.isConstant]
    simp only [same.mem_iff]
  · rw [Bool.eq_iff_iff, multiply.hasValue, more.hasValue]
    simp only [same.mem_iff]

theorem multiplied?_isSome : factors.multiplied?.isSome = true ↔ factors.Multiply := by
  unfold multiplied?
  by_cases multiply : factors.Multiply <;> simp [multiply]

theorem eq_of_multiplied? {all : Factors} (h : factors.multiplied? = some all) : all = factors := by
  unfold multiplied? at h
  split at h
  · exact (Option.some.inj h).symm
  · cases h

theorem sameDimensions_of_perm {term other : Term} (took : term.Took table factors)
    (more : other.Took table others) (same : factors.Perm others) :
    term.finish.sameDimensions other.finish = true := by
  have above : term.finish.numerator.product = other.finish.numerator.product := by
    change term.quantity.numerator.product = other.quantity.numerator.product
    rw [took.numerator, more.numerator]
    exact primeProduct_above_of_perm same
  have below : term.finish.denominator.product = other.finish.denominator.product := by
    change term.quantity.denominator.product = other.quantity.denominator.product
    rw [took.denominator, more.denominator]
    exact primeProduct_below_of_perm same
  simp [Quantity.sameDimensions, above, below]

end Factors

open Factors in
/-- A term takes in all its factors exactly if one of them is a vector at most and both products of
primes stay within their bound. It has then the dimensions of the factors in their order, and what
it is apart from that order is the same in every order of the factors behind the first. -/
theorem Term.ofFactors_exact {table : Table} (reached : table.Reached) (negated : Bool)
    {first : Quantity} {factors : Factors} (overs : AreOver table ((.times, first) :: factors)) :
    ((∃ term, ofFactors negated first factors = .ok term) ↔
      Multiply ((.times, first) :: factors)) ∧
    (∀ term, ofFactors negated first factors = .ok term →
      MultiplyTo ((.times, first) :: factors) term.finish) ∧
    ∀ others : Factors, factors.Perm others →
      ((∃ term, ofFactors negated first factors = .ok term) ↔
        ∃ term, ofFactors negated first others = .ok term) ∧
      ∀ term other, ofFactors negated first factors = .ok term →
        ofFactors negated first others = .ok other →
        term.finish.sameDimensions other.finish = true ∧
          term.finish.isVector = other.finish.isVector ∧
          term.finish.isConstant = other.finish.isConstant ∧
          term.finish.hasValue = other.finish.hasValue := by
  have meets {factors : Factors} (overs : AreOver table ((.times, first) :: factors)) :=
    ofFactors_took reached.numbered negated overs
  have multiplies {factors : Factors} (overs : AreOver table ((.times, first) :: factors)) :
      (∃ term, ofFactors negated first factors = .ok term) ↔
        Multiply ((.times, first) :: factors) :=
    (meets overs).ok_iff.trans multiplied?_isSome
  have took {factors : Factors} (overs : AreOver table ((.times, first) :: factors)) {term : Term}
      (h : ofFactors negated first factors = .ok term) :
      term.Took table ((.times, first) :: factors) ∧
        MultiplyTo ((.times, first) :: factors) term.finish := by
    obtain ⟨all, some, took⟩ := (meets overs).of_ok h
    obtain rfl := eq_of_multiplied? some
    obtain ⟨constant, known⟩ := scalar_of_ofFactors h
    exact ⟨took, multiplyTo_finish took constant known⟩
  refine ⟨multiplies overs, fun term h => (took overs h).2, fun others same => ?_⟩
  have exchanged := same.cons (.times, first)
  have alike : AreOver table ((.times, first) :: others) :=
    fun factor member => overs factor (exchanged.mem_iff.mpr member)
  refine ⟨?_, fun term other h more => ?_⟩
  · rw [multiplies overs, multiplies alike]
    exact ⟨.of_perm exchanged, .of_perm exchanged.symm⟩
  · obtain ⟨ofTerm, flags⟩ := took overs h
    obtain ⟨ofOther, otherFlags⟩ := took alike more
    exact ⟨sameDimensions_of_perm ofTerm ofOther exchanged, flags.flags_eq otherFlags exchanged⟩

/-- Twice a way, divided by a time, in both orders. -/
theorem Term.exists_velocity_in_both_orders :
    let way : Quantity := { Quantity.ofDimension ⟨"meter", some "m", 2⟩ with isVector := true }
    let time : Quantity := .ofDimension ⟨"second", some "s", 5⟩
    ∃ term other, ofFactors true (.constant 2.0) [(.times, way), (.over, time)] = .ok term ∧
      ofFactors true (.constant 2.0) [(.over, time), (.times, way)] = .ok other ∧
      term.finish.numerator.factors = [⟨"meter", some "m", 2⟩] ∧
      term.finish.denominator.factors = [⟨"second", some "s", 5⟩] ∧
      term.finish.isVector = true ∧ term.finish.isConstant = false ∧
      term.finish.sameDimensions other.finish = true := by
  intro way time
  have single (dimension : Dimension) (member : dimension ∈ Table.si.dimensions) :
      (Quantity.ofDimension dimension).IsOver .si :=
    ⟨Monomial.isOver_singleton Table.numbered_si member, Monomial.isOver_one⟩
  have ofWay : way.IsOver .si :=
    ⟨(single _ (by simp [Table.si])).numerator, Monomial.isOver_one⟩
  have ofTime : time.IsOver .si := single _ (by simp [Table.si])
  have overs : Factors.AreOver .si
      [(.times, .constant 2.0), (.times, way), (.over, time)] := by
    simpa [Factors.AreOver] using ⟨⟨Monomial.isOver_one, Monomial.isOver_one⟩, ofWay, ofTime⟩
  obtain ⟨multiplies, results, orders⟩ := ofFactors_exact .si true overs
  obtain ⟨alike, same⟩ := orders [(.over, time), (.times, way)] (.swap _ _ _)
  obtain ⟨term, h⟩ := multiplies.mpr (by decide +kernel)
  obtain ⟨other, more⟩ := alike.mp ⟨term, h⟩
  have result := results term h
  refine ⟨term, other, h, more, result.numerator, result.denominator, ?_, ?_,
    (same term other h more).1⟩
  · exact result.isVector.mpr ⟨(.times, way), by simp, rfl⟩
  · rw [Bool.eq_false_iff, Ne, result.isConstant]
    intro constant
    cases constant (.over, time) (by simp)

end Dimensional
