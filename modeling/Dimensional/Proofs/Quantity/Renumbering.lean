import Dimensional.Proofs.Dimension.Renumbering
import Dimensional.Proofs.Quantity.Worth

/-! Operations on quantities do the same whatever the primes of their dimensions are, as long as no
product of primes overflows. -/

namespace Dimensional

namespace Quantity

/-- A quantity without primes and their products. -/
def erased (quantity : Quantity) : Quantity :=
  { quantity with
    numerator := quantity.numerator.erased, denominator := quantity.denominator.erased }

/-- The same quantity over two tables, up to the primes. -/
structure Renumbered (left right : Table) (quantity other : Quantity) : Prop where
  numerator : quantity.numerator.Renumbered left right other.numerator
  denominator : quantity.denominator.Renumbered left right other.denominator
  bare_eq : quantity.bare = other.bare

variable {left right : Table} {quantity other term otherTerm : Quantity}

theorem renumbered_unknown : unknown.Renumbered left right unknown :=
  ⟨Monomial.renumbered_one, Monomial.renumbered_one, rfl⟩

theorem renumbered_constant (value : Float) :
    (constant value).Renumbered left right (constant value) :=
  ⟨Monomial.renumbered_one, Monomial.renumbered_one, rfl⟩

/-- What is over its own table and the same without primes is the same up to the primes. -/
theorem renumbered_of_erased_eq (isOver : quantity.IsOver left) (otherOver : other.IsOver right)
    (same : quantity.erased = other.erased) : quantity.Renumbered left right other :=
  ⟨⟨isOver.numerator, otherOver.numerator,
      (congrArg (fun quantity => quantity.numerator.factors) same :)⟩,
    ⟨isOver.denominator, otherOver.denominator,
      (congrArg (fun quantity => quantity.denominator.factors) same :)⟩,
    (congrArg Quantity.bare same :)⟩

theorem renumbered_ofDimension (tables : left.Renumbered right) {dimension counterpart : Dimension}
    (alike : dimension.Renumbered left right counterpart) :
    (ofDimension dimension).Renumbered left right (ofDimension counterpart) := by
  obtain ⟨name, symbol?, _⟩ := Dimension.mk.inj alike.erased
  refine ⟨⟨Monomial.isOver_singleton tables.numbered alike.member,
    Monomial.isOver_singleton tables.otherNumbered alike.otherMember,
    congrArg (fun erased => [erased]) alike.erased⟩, Monomial.renumbered_one, ?_⟩
  exact congrArg (fun name => { unknown with identifier? := some name }) name

namespace Renumbered

section Fields

variable (alike : quantity.Renumbered left right other)

include alike

theorem erased_eq : quantity.erased = other.erased := by
  have above := alike.numerator.erased_eq
  have below := alike.denominator.erased_eq
  change { quantity.bare with
    numerator := quantity.numerator.erased, denominator := quantity.denominator.erased } = _
  rw [alike.bare_eq, above, below]
  rfl

/-- Only the products of dimensions may differ. -/
theorem exists_products :
    ∃ numerator denominator, other = { quantity with numerator, denominator } := by
  refine ⟨other.numerator, other.denominator, ?_⟩
  change _ = { quantity.bare with numerator := other.numerator, denominator := other.denominator }
  rw [alike.bare_eq]
  rfl

theorem isVector_eq : quantity.isVector = other.isVector :=
  (congrArg Quantity.isVector alike.bare_eq :)

theorem isConstant_eq : quantity.isConstant = other.isConstant :=
  (congrArg Quantity.isConstant alike.bare_eq :)

theorem hasValue_eq : quantity.hasValue = other.hasValue :=
  (congrArg Quantity.hasValue alike.bare_eq :)

theorem value_eq : quantity.value = other.value :=
  (congrArg Quantity.value alike.bare_eq :)

theorem mono {leftExtended rightExtended : Table}
    (grows : left.dimensions ⊆ leftExtended.dimensions)
    (otherGrows : right.dimensions ⊆ rightExtended.dimensions) :
    quantity.Renumbered leftExtended rightExtended other :=
  ⟨alike.numerator.mono grows otherGrows, alike.denominator.mono grows otherGrows, alike.bare_eq⟩

theorem isDimensioned_eq : quantity.isDimensioned = other.isDimensioned := by
  unfold isDimensioned
  rw [alike.numerator.isEmpty_eq, alike.denominator.isEmpty_eq]

theorem dimensionText_eq : quantity.dimensionText = other.dimensionText := by
  unfold dimensionText
  rw [alike.numerator.isEmpty_eq, alike.denominator.isEmpty_eq, alike.numerator.text_eq,
    alike.denominator.text_eq]

theorem named (name : String) : (quantity.named name).Renumbered left right (other.named name) :=
  ⟨alike.numerator, alike.denominator, congrArg (fun bare => bare.named name) alike.bare_eq⟩

end Fields

section Operations

variable (tables : left.Renumbered right) (alike : quantity.Renumbered left right other)

include tables alike

theorem sameDimensions_eq (terms : term.Renumbered left right otherTerm) :
    quantity.sameDimensions term = other.sameDimensions otherTerm := by
  rw [Bool.eq_iff_iff]
  simp only [sameDimensions, Bool.and_eq_true, beq_iff_eq]
  rw [alike.numerator.product_eq_iff tables terms.numerator,
    alike.denominator.product_eq_iff tables terms.denominator]

theorem isDimensionless_eq : quantity.isDimensionless = other.isDimensionless :=
  alike.sameDimensions_eq tables renumbered_unknown

theorem add (op : AddOp) (terms : term.Renumbered left right otherTerm) :
    (quantity.add op term).Alike (· = .overflow) (Renumbered left right)
      (other.add op otherTerm) := by
  unfold Quantity.add ensureSameDimensions
  rw [alike.sameDimensions_eq tables terms, alike.dimensionText_eq, terms.dimensionText_eq]
  split
  · refine .ok ⟨alike.numerator, alike.denominator, ?_⟩
    simp only [bare]
    rw [alike.isVector_eq, alike.isConstant_eq, alike.hasValue_eq, alike.value_eq,
      terms.isVector_eq, terms.isConstant_eq, terms.hasValue_eq, terms.value_eq]
  · exact .same _

omit alike in
theorem repeated {monomial counterpart : Monomial}
    (monomials : monomial.Renumbered left right counterpart) (times : Nat) :
    (repeated monomial times).Alike (· = .overflow) (Monomial.Renumbered left right)
      (repeated counterpart times) := by
  refine Monomial.renumbered_one.append tables
    (flatten_replicate_subset monomials.isOver.member)
    (flatten_replicate_subset monomials.otherOver.member) ?_
  rw [List.map_flatten, List.map_replicate, monomials.factors, List.map_flatten, List.map_replicate]

theorem repeatedBoth (times : Nat) :
    (quantity.repeatedBoth times).Alike (· = .overflow)
      (fun both same => both.1.Renumbered left right same.1 ∧ both.2.Renumbered left right same.2)
      (other.repeatedBoth times) := by
  refine (repeated tables alike.numerator times).bind fun above same _ _ numerators => ?_
  refine (repeated tables alike.denominator times).bind fun below same _ _ denominators => ?_
  exact .ok ⟨numerators, denominators⟩

theorem raisedDimensions (times : Int) :
    (quantity.raisedDimensions times).Alike (· = .overflow)
      (fun both same => both.1.Renumbered left right same.1 ∧ both.2.Renumbered left right same.2)
      (other.raisedDimensions times) := by
  rw [raisedDimensions_eq, raisedDimensions_eq]
  split
  · exact .same _
  · split
    · exact (alike.repeatedBoth tables _).map fun _ _ both => both.symm
    · exact alike.repeatedBoth tables _

theorem power (exponent : Float) :
    (quantity.power exponent).Alike (· = .overflow) (Renumbered left right)
      (other.power exponent) := by
  have dimensioned := alike.isDimensioned_eq
  have raised := alike.raisedDimensions tables
  obtain ⟨above, below, rfl⟩ := alike.exists_products
  unfold Quantity.power
  rw [← dimensioned]
  dsimp only
  split
  · split
    · exact .same _
    · exact .ok ⟨Monomial.renumbered_one, Monomial.renumbered_one, rfl⟩
  · by_cases isDimensioned : quantity.isDimensioned = true
    · rw [if_pos isDimensioned, if_pos isDimensioned]
      cases Number.toInt? exponent with
      | some whole =>
        refine (raised whole).map ?_
        rintro ⟨numerator, denominator⟩ ⟨_, _⟩ ⟨numerators, denominators⟩
        exact ⟨numerators, denominators, rfl⟩
      | none =>
        dsimp only
        split
        · exact .same _
        · exact .same _
    · rw [if_neg isDimensioned, if_neg isDimensioned]
      exact .ok ⟨Monomial.renumbered_one, Monomial.renumbered_one, rfl⟩

theorem vectorProduct (op : VectorOp) (terms : term.Renumbered left right otherTerm)
    {angle? otherAngle? : Option Dimension}
    (angles : Option.Rel (Dimension.Renumbered left right) angle? otherAngle?) :
    (vectorProduct op quantity term angle?).Alike (· = .overflow) (Renumbered left right)
      (Quantity.vectorProduct op other otherTerm otherAngle?) := by
  unfold Quantity.vectorProduct
  rw [alike.isVector_eq, terms.isVector_eq]
  by_cases vectors : (other.isVector && otherTerm.isVector) = true
  · rw [if_pos vectors, if_pos vectors]
    have one : Monomial.one.Renumbered left right .one := Monomial.renumbered_one
    refine (one.multiply tables alike.numerator).bind fun _ _ _ _ above => ?_
    refine (one.multiply tables alike.denominator).bind fun _ _ _ _ below => ?_
    refine (above.multiply tables terms.numerator).bind fun _ _ _ _ above => ?_
    refine (below.multiply tables terms.denominator).bind fun _ _ _ _ below => ?_
    cases op with
    | dot => exact .ok ⟨above, below, rfl⟩
    | cross =>
      cases angles with
      | none => exact .same _
      | some angle =>
        have lowered := below.append tables (List.cons_subset.mpr ⟨angle.member, List.nil_subset _⟩)
          (List.cons_subset.mpr ⟨angle.otherMember, List.nil_subset _⟩)
          (congrArg (fun erased => [erased]) angle.erased)
        exact lowered.bind fun _ _ _ _ below => .ok ⟨above, below, rfl⟩
  · rw [if_neg vectors, if_neg vectors]
    exact .same _

end Operations

end Renumbered

end Quantity

namespace Term

/-- The same chain over two tables, up to the primes. -/
structure Renumbered (left right : Table) (term other : Term) : Prop where
  quantity : term.quantity.Renumbered left right other.quantity
  coefficient : term.coefficient = other.coefficient
  hasNumber : term.hasNumber = other.hasNumber
  allConstant : term.allConstant = other.allConstant
  vectors : term.vectors = other.vectors

namespace Renumbered

variable {left right : Table} {term other : Term} {factor otherFactor : Quantity}
  (tables : left.Renumbered right) (alike : term.Renumbered left right other)
  (factors : factor.Renumbered left right otherFactor)

theorem start (negated : Bool) : (start negated).Renumbered left right (start negated) :=
  ⟨Quantity.renumbered_unknown, rfl, rfl, rfl, rfl⟩

theorem finish (alike : term.Renumbered left right other) :
    term.finish.Renumbered left right other.finish := by
  refine ⟨alike.quantity.numerator, alike.quantity.denominator, ?_⟩
  have value : term.value = other.value := by
    unfold value
    rw [alike.hasNumber, alike.coefficient]
  change { term.quantity.bare with
    isConstant := term.allConstant, hasValue := term.hasNumber, value := term.value } = _
  rw [alike.quantity.bare_eq, alike.allConstant, alike.hasNumber, value]
  rfl

/-- Another value leaves the dimensions as they are. -/
theorem withValue (alike : term.Renumbered left right other) (coefficient : Float) :
    { term with coefficient, hasNumber := true }.Renumbered left right
      { other with coefficient, hasNumber := true } :=
  ⟨alike.quantity, rfl, rfl, alike.allConstant, alike.vectors⟩

theorem withProducts (alike : term.Renumbered left right other)
    (factors : factor.Renumbered left right otherFactor)
    {above below otherAbove otherBelow : Monomial} (numerators : above.Renumbered left right otherAbove)
    (denominators : below.Renumbered left right otherBelow) :
    (term.withProducts factor above below).Renumbered left right
      (other.withProducts otherFactor otherAbove otherBelow) := by
  refine ⟨⟨numerators, denominators, alike.quantity.bare_eq⟩, alike.coefficient, alike.hasNumber,
    ?_, alike.vectors⟩
  change (_ && _) = (_ && _)
  rw [alike.allConstant, factors.isConstant_eq]

include tables alike factors

theorem absorbDimensions (op : MulOp) :
    (settled (term.absorbDimensions op factor)).Alike (· = .overflow) (Renumbered left right)
      (settled (other.absorbDimensions op otherFactor)) := by
  obtain ⟨above, below⟩ := And.intro alike.quantity.numerator alike.quantity.denominator
  match op with
  | .times =>
    rw [settled_times, settled_times]
    exact (above.multiplyBoth tables below factors.numerator factors.denominator).map
      fun _ _ both => alike.withProducts factors both.1 both.2
  | .over =>
    rw [settled_over, settled_over]
    exact (below.multiplyBoth tables above factors.numerator factors.denominator).map
      fun _ _ both => alike.withProducts factors both.2 both.1

theorem absorb (op : MulOp) :
    (settled (term.absorb op factor)).Alike (· = .overflow) (Renumbered left right)
      (settled (other.absorb op otherFactor)) := by
  unfold Term.absorb
  rw [factors.isVector_eq, alike.vectors]
  split
  · dsimp only
    split
    · exact .same _
    · refine absorbDimensions tables ?_ factors op
      refine ⟨⟨alike.quantity.numerator, alike.quantity.denominator, ?_⟩, alike.coefficient,
        alike.hasNumber, alike.allConstant, rfl⟩
      exact congrArg (fun bare : Quantity => { bare with isVector := true }) alike.quantity.bare_eq
  · exact alike.absorbDimensions tables factors op

theorem apply (op : MulOp) :
    (settled (term.apply op factor)).Alike (· = .overflow) (Renumbered left right)
      (settled (other.apply op otherFactor)) := by
  unfold Term.apply
  rw [factors.hasValue_eq, factors.value_eq, alike.coefficient]
  split
  · exact (alike.withValue _).absorb tables factors op
  · exact alike.absorb tables factors op

omit alike in
theorem ofFactor (negated : Bool) :
    (ofFactor negated factor).Alike (· = .overflow) (Renumbered left right)
      (Term.ofFactor negated otherFactor) := by
  rw [ofFactor_eq, ofFactor_eq, factors.hasValue_eq, factors.value_eq]
  split
  · exact ((start negated).withValue _).absorb tables factors .times
  · exact (start negated).absorb tables factors .times

end Renumbered

end Term

namespace Worth

/-- What a node is worth without primes and their products. -/
def erased (worth : Worth) : Worth :=
  { worth with quantity? := worth.quantity?.map Quantity.erased }

/-- The same worth over two tables, up to the primes. -/
inductive Renumbered (left right : Table) : Worth → Worth → Prop where
  | number (value : Float) : Renumbered left right (.number value) (.number value)
  | quantity {annotated other : Quantity} (alike : annotated.Renumbered left right other) :
      Renumbered left right (.quantity annotated) (.quantity other)

end Worth

/-- The same term as far as it has been read, up to the primes. -/
inductive Chain.Renumbered (left right : Table) : Chain → Chain → Prop where
  | number (value : Float) : Renumbered left right (.number value) (.number value)
  | quantity {term other : Term} (alike : term.Renumbered left right other) :
      Renumbered left right (.quantity term) (.quantity other)

namespace Worth.Renumbered

variable {left right : Table} {worth other term otherTerm : Worth}
  (alike : worth.Renumbered left right other)

include alike

theorem erased_eq : worth.erased = other.erased := by
  cases alike with
  | number => rfl
  | quantity alike => exact congrArg₂ Worth.mk alike.value_eq (congrArg some alike.erased_eq)

theorem value_eq : worth.value = other.value := by
  cases alike with
  | number => rfl
  | quantity alike => exact alike.value_eq

/-- Numbers have no dimensions in either table. -/
theorem toQuantity : worth.toQuantity.Renumbered left right other.toQuantity := by
  cases alike with
  | number => exact Quantity.renumbered_unknown
  | quantity alike => exact alike

theorem ofAtom (grammar : Grammar) :
    (ofAtom grammar worth).Renumbered left right (Worth.ofAtom grammar other) := by
  cases grammar with
  | numeric =>
    simp only [Worth.ofAtom, alike.value_eq]
    exact .number _
  | quantity => exact .quantity alike.toQuantity

variable (tables : left.Renumbered right)

include tables

theorem power (exponent : Float) :
    (worth.power exponent).Alike (· = .overflow) (Renumbered left right)
      (other.power exponent) := by
  cases alike with
  | number =>
    rw [power_number]
    split
    · exact .same _
    · exact .ok (.number _)
  | quantity alike => exact (alike.power tables exponent).map fun _ _ raised => .quantity raised

theorem add (op : AddOp) (terms : term.Renumbered left right otherTerm) :
    (worth.add op term).Alike (· = .overflow) (Renumbered left right)
      (other.add op otherTerm) := by
  cases alike with
  | number sum =>
    rw [add_number, add_number, terms.value_eq]
    exact .ok (.number _)
  | quantity alike => exact (alike.add tables op terms.toQuantity).map fun _ _ sum => .quantity sum

/-- A term begins with a factor. -/
theorem ofFactor (grammar : Grammar) (negated : Bool) :
    (Chain.ofFactor grammar negated worth).Alike (· = .overflow) (Chain.Renumbered left right)
      (Chain.ofFactor grammar negated other) := by
  cases grammar with
  | numeric =>
    simp only [Chain.ofFactor, alike.value_eq]
    exact .ok (.number _)
  | quantity =>
    exact (Term.Renumbered.ofFactor tables alike.toQuantity negated).map fun _ _ term =>
      .quantity term

end Worth.Renumbered

namespace Chain.Renumbered

variable {left right : Table} {chain other : Chain} {factor otherFactor : Worth}

theorem finish (alike : chain.Renumbered left right other) :
    chain.finish.Renumbered left right other.finish := by
  cases alike with
  | number value => exact .number value
  | quantity alike => exact .quantity alike.finish

theorem apply (tables : left.Renumbered right) (alike : chain.Renumbered left right other)
    (factors : factor.Renumbered left right otherFactor) (op : MulOp) :
    (chain.apply op factor).Alike (· = .overflow) (Renumbered left right)
      (other.apply op otherFactor) := by
  cases alike with
  | number value =>
    simp only [Chain.apply, factors.value_eq]
    exact .ok (.number _)
  | quantity alike =>
    rw [Chain.apply_quantity, Chain.apply_quantity]
    exact (alike.apply tables factors.toQuantity op).map fun _ _ term => .quantity term

end Chain.Renumbered

end Dimensional
