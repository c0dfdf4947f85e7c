import Dimensional.Proofs.Number.Power
import Dimensional.Proofs.Quantity.Factors

/-! A quantity with dimensions raised to a number. Copy after copy of its dimensions multiplies out
to powers of its products, and the greatest exponent refuses nothing that would have fitted. -/

namespace Dimensional

namespace Monomial

variable {table : Table} {monomial : Monomial} {times more : Nat}

/-- Copies of the dimensions with the power of their product. -/
def pow (monomial : Monomial) (times : Nat) : Monomial :=
  ⟨(List.replicate times monomial.factors).flatten, monomial.product ^ times⟩

theorem pow_pow : (monomial.pow times).pow more = monomial.pow (times * more) := by
  have factors : (List.replicate more (List.replicate times monomial.factors).flatten).flatten =
      (List.replicate (times * more) monomial.factors).flatten := by
    induction more with
    | zero => rfl
    | succ more ih =>
      rw [List.replicate_succ, List.flatten_cons, ih, ← List.flatten_append,
        List.replicate_append_replicate, Nat.mul_succ, Nat.add_comm]
  unfold pow
  rw [factors, ← pow_mul]

theorem of_pow (isOver : monomial.IsOver table) :
    Monomial.of (monomial.pow times).factors = monomial.pow times := by
  unfold Monomial.of pow
  rw [primeProduct_flatten_replicate, ← isOver.product]

theorem pow_isOver (isOver : monomial.IsOver table) (fits : monomial.product ^ times < bound) :
    (monomial.pow times).IsOver table where
  member := Quantity.flatten_replicate_subset isOver.member
  product := congrArg product (of_pow isOver).symm
  fits := fits

/-- One copy more. -/
theorem pow_succ_factors :
    (monomial.pow (times + 1)).factors = (monomial.pow times).factors ++ monomial.factors := by
  simp [pow, List.replicate_succ']

theorem product_pos (numbered : table.Numbered) (isOver : monomial.IsOver table) :
    0 < monomial.product := by
  rw [isOver.product]
  exact primeProduct_pos fun dimension member =>
    (numbered.prime dimension (isOver.member member)).pos

end Monomial

namespace Quantity

variable {table : Table} {base raised : Quantity} {times more : ℤ} {exponent : Float}

/-- Copies of both products, taken in one after the other. -/
def expand (base : Quantity) : Nat → Except AlgebraError (Monomial × Monomial)
  | 0 => .ok (.one, .one)
  | times + 1 => do
    let (numerator, denominator) ← base.expand times
    let numerator ← numerator.append base.numerator.factors
    let denominator ← denominator.append base.denominator.factors
    .ok (numerator, denominator)

/-- Both products stay within their bound when they are raised. -/
def PowerFits (base : Quantity) (times : Nat) : Prop :=
  base.numerator.product ^ times < 2 ^ 128 ∧ base.denominator.product ^ times < 2 ^ 128

instance (base : Quantity) (times : Nat) : Decidable (base.PowerFits times) :=
  inferInstanceAs (Decidable (_ ∧ _))

theorem PowerFits.mono (numbered : table.Numbered) (isOver : base.IsOver table) {times more : Nat}
    (fits : base.PowerFits more) (fewer : times ≤ more) : base.PowerFits times :=
  ⟨Nat.lt_of_le_of_lt
      (Nat.pow_le_pow_right (Monomial.product_pos numbered isOver.numerator) fewer) fits.1,
    Nat.lt_of_le_of_lt
      (Nat.pow_le_pow_right (Monomial.product_pos numbered isOver.denominator) fewer) fits.2⟩

theorem powerFits_iff (isOver : base.IsOver table) {times : Nat} :
    base.PowerFits times ↔
      primeProduct (base.numerator.pow times).factors < Monomial.bound ∧
        primeProduct (base.denominator.pow times).factors < Monomial.bound := by
  have above : primeProduct (base.numerator.pow times).factors = base.numerator.product ^ times :=
    congrArg Monomial.product (Monomial.of_pow isOver.numerator)
  have below : primeProduct (base.denominator.pow times).factors =
      base.denominator.product ^ times :=
    congrArg Monomial.product (Monomial.of_pow isOver.denominator)
  rw [above, below]
  rfl

/-- A copy that does not fit ends it: further copies mend nothing. -/
theorem expand_eq (numbered : table.Numbered) (isOver : base.IsOver table) (times : Nat) :
    base.expand times =
      if base.PowerFits times then .ok (base.numerator.pow times, base.denominator.pow times)
      else .error .overflow := by
  induction times with
  | zero =>
    have fits : base.PowerFits 0 := by simp [PowerFits]
    rw [if_pos fits]
    rfl
  | succ times ih =>
    rw [expand, ih]
    by_cases earlier : base.PowerFits times
    · rw [if_pos earlier, Except.ok_bind]
      dsimp only
      rw [Term.append_both_eq numbered (Monomial.pow_isOver isOver.numerator earlier.1)
        (Monomial.pow_isOver isOver.denominator earlier.2) isOver.numerator.member
        isOver.denominator.member, ← Monomial.pow_succ_factors, ← Monomial.pow_succ_factors,
        Monomial.of_pow isOver.numerator, Monomial.of_pow isOver.denominator]
      exact if_congr (powerFits_iff isOver).symm rfl rfl
    · have later : ¬ base.PowerFits (times + 1) :=
        fun fits => earlier (fits.mono numbered isOver (Nat.le_succ times))
      rw [if_neg earlier, if_neg later]
      rfl

theorem expand_ok_iff (numbered : table.Numbered) (isOver : base.IsOver table) {times : Nat} :
    (∃ both, base.expand times = .ok both) ↔ base.PowerFits times := by
  rw [expand_eq numbered isOver]
  by_cases fits : base.PowerFits times <;> simp [fits]

/-- All copies at once come to the same. -/
theorem repeatedBoth_eq_expand (numbered : table.Numbered) (isOver : base.IsOver table)
    (times : Nat) : base.repeatedBoth times = base.expand times := by
  rw [expand_eq numbered isOver]
  refine (Term.append_both_eq numbered Monomial.isOver_one Monomial.isOver_one
    (flatten_replicate_subset isOver.numerator.member)
    (flatten_replicate_subset isOver.denominator.member)).trans ?_
  rw [← Monomial.of_pow isOver.numerator, ← Monomial.of_pow isOver.denominator]
  exact if_congr (powerFits_iff isOver).symm rfl rfl

/-- The greatest exponent refuses only what does not fit. -/
theorem not_powerFits_of_large (numbered : table.Numbered) (isOver : base.IsOver table)
    (dimensioned : base.isDimensioned = true) {times : Nat} (large : maxExponent < times) :
    ¬ base.PowerFits times := by
  intro fits
  exact not_fits_copies numbered isOver dimensioned large
    (Measure.fits_iff.mpr ((powerFits_iff isOver).mp fits))

/-- The products of a quantity raised to an integer, which change sides below zero. -/
def raisedProducts (base : Quantity) (times : ℤ) : Monomial × Monomial :=
  if times < 0 then (base.denominator.pow times.natAbs, base.numerator.pow times.natAbs)
  else (base.numerator.pow times.natAbs, base.denominator.pow times.natAbs)

theorem raisedDimensions_exact (numbered : table.Numbered) (isOver : base.IsOver table)
    (dimensioned : base.isDimensioned = true) (times : ℤ) :
    base.raisedDimensions times =
      if base.PowerFits times.natAbs then .ok (base.raisedProducts times)
      else .error .overflow := by
  rw [raisedDimensions_eq, repeatedBoth_eq_expand numbered isOver, expand_eq numbered isOver,
    raisedProducts]
  by_cases large : maxExponent < times.natAbs
  · rw [if_pos large, if_neg (not_powerFits_of_large numbered isOver dimensioned large)]
  · rw [if_neg large, apply_ite (Except.map Prod.swap)]
    by_cases negative : times < 0
    · rw [if_pos negative, if_pos negative]
      rfl
    · rw [if_neg negative, if_neg negative]

/-- What a quantity with dimensions is when it is raised to an integer, its value left aside. -/
structure IsRaised (base : Quantity) (times : ℤ) (raised : Quantity) : Prop where
  numerator : raised.numerator = (base.raisedProducts times).1
  denominator : raised.denominator = (base.raisedProducts times).2
  identifier? : raised.identifier? = base.identifier?
  isVector : raised.isVector = base.isVector
  isConstant : raised.isConstant = base.isConstant
  hasValue : raised.hasValue = base.hasValue

theorem raisedProducts_isOver (isOver : base.IsOver table) (fits : base.PowerFits times.natAbs) :
    (base.raisedProducts times).1.IsOver table ∧ (base.raisedProducts times).2.IsOver table := by
  have above := Monomial.pow_isOver isOver.numerator fits.1
  have below := Monomial.pow_isOver isOver.denominator fits.2
  unfold raisedProducts
  split
  · exact ⟨below, above⟩
  · exact ⟨above, below⟩

/-- Which side is which does not matter to the bound. -/
theorem IsRaised.powerFits_iff (isRaised : base.IsRaised times raised) {more : Nat} :
    raised.PowerFits more ↔ base.PowerFits (times.natAbs * more) := by
  unfold PowerFits
  rw [isRaised.numerator, isRaised.denominator, pow_mul, pow_mul]
  unfold raisedProducts
  split
  · exact and_comm
  · rfl

/-- Raising twice multiplies the exponents. -/
theorem IsRaised.raisedProducts (isRaised : base.IsRaised times raised) (nonzero : times ≠ 0)
    (further : more ≠ 0) : raised.raisedProducts more = base.raisedProducts (times * more) := by
  unfold Quantity.raisedProducts
  rw [isRaised.numerator, isRaised.denominator, Int.natAbs_mul]
  unfold Quantity.raisedProducts
  rcases lt_or_gt_of_ne nonzero with below | above
  · rcases lt_or_gt_of_ne further with lower | upper
    · have positive : ¬ times * more < 0 := (Int.mul_pos_of_neg_of_neg below lower).le.not_gt
      simp only [below, lower, positive, ↓reduceIte, Monomial.pow_pow]
    · have negative : times * more < 0 := Int.mul_neg_of_neg_of_pos below upper
      simp only [below, upper.le.not_gt, negative, ↓reduceIte, Monomial.pow_pow]
  · rcases lt_or_gt_of_ne further with lower | upper
    · have negative : times * more < 0 := Int.mul_neg_of_pos_of_neg above lower
      simp only [above.le.not_gt, lower, negative, ↓reduceIte, Monomial.pow_pow]
    · have positive : ¬ times * more < 0 := (Int.mul_pos above upper).le.not_gt
      simp only [above.le.not_gt, upper.le.not_gt, positive, ↓reduceIte, Monomial.pow_pow]

/-- What stands for no integer can be no exponent of dimensions. -/
theorem power_of_toInt?_eq_none (dimensioned : base.isDimensioned = true)
    (fractional : Number.toInt? exponent = none) :
    base.power exponent =
      if Number.isInfinite exponent then .error .overflow
      else .error (.nonIntegerExponent exponent) := by
  have nonzero : ¬ (exponent == 0.0) = true := by
    intro zero
    have whole : Number.toInt? exponent = some 0 :=
      Number.toInt?_eq_some_iff.mpr (by exact_mod_cast Number.denotes_zero zero)
    rw [fractional] at whole
    cases whole
  unfold power
  rw [if_neg nonzero, if_pos dimensioned, fractional]

section Power

variable (numbered : table.Numbered) (isOver : base.IsOver table)
  (dimensioned : base.isDimensioned = true)

include numbered isOver dimensioned

/-- A quantity is raised to an integer exactly if both products stay within their bound, and what
can go wrong is that they do not. -/
theorem power_of_denotes (denotes : Number.Denotes exponent times) (nonzero : times ≠ 0) :
    (base.PowerFits times.natAbs ∧ ∃ raised, base.power exponent = .ok raised ∧
      base.IsRaised times raised) ∨
    (¬ base.PowerFits times.natAbs ∧ base.power exponent = .error .overflow) := by
  have different : ¬ (exponent == 0.0) = true := by
    intro zero
    exact nonzero (by exact_mod_cast denotes.unique (Number.denotes_zero zero))
  unfold power
  rw [if_neg different, if_pos dimensioned, Number.toInt?_eq_some_iff.mpr denotes]
  dsimp only
  rw [raisedDimensions_exact numbered isOver dimensioned]
  by_cases fits : base.PowerFits times.natAbs
  · rw [if_pos fits]
    exact .inl ⟨fits, _, rfl, rfl, rfl, rfl, rfl, rfl, rfl⟩
  · rw [if_neg fits]
    exact .inr ⟨fits, rfl⟩

theorem power_ok_iff (denotes : Number.Denotes exponent times) (nonzero : times ≠ 0) :
    (∃ raised, base.power exponent = .ok raised) ↔ base.PowerFits times.natAbs := by
  rcases power_of_denotes numbered isOver dimensioned denotes nonzero with
    ⟨fits, raised, h, _⟩ | ⟨unfit, h⟩
  · exact ⟨fun _ => fits, fun _ => ⟨raised, h⟩⟩
  · rw [h]
    exact ⟨nofun, fun fits => absurd fits unfit⟩

theorem isRaised_of_power (denotes : Number.Denotes exponent times) (nonzero : times ≠ 0)
    (h : base.power exponent = .ok raised) :
    base.PowerFits times.natAbs ∧ base.IsRaised times raised := by
  rcases power_of_denotes numbered isOver dimensioned denotes nonzero with
    ⟨fits, other, more, isRaised⟩ | ⟨_, failed⟩
  · rw [h] at more
    cases more
    exact ⟨fits, isRaised⟩
  · rw [h] at failed
    cases failed

end Power

/-- What was raised can be raised again. -/
theorem IsRaised.isOver (isRaised : base.IsRaised times raised) (isOver : base.IsOver table)
    (fits : base.PowerFits times.natAbs) : raised.IsOver table := by
  obtain ⟨above, below⟩ := raisedProducts_isOver isOver fits
  exact ⟨isRaised.numerator ▸ above, isRaised.denominator ▸ below⟩

theorem IsRaised.isDimensioned (isRaised : base.IsRaised times raised) (nonzero : times ≠ 0)
    (dimensioned : base.isDimensioned = true) : raised.isDimensioned = true := by
  obtain ⟨copies, same⟩ := Nat.exists_eq_succ_of_ne_zero (Int.natAbs_ne_zero.mpr nonzero)
  have empty (monomial : Monomial) :
      (monomial.pow times.natAbs).factors.isEmpty = monomial.factors.isEmpty := by
    rw [same, Nat.succ_eq_add_one, Monomial.pow_succ_factors, Bool.eq_iff_iff]
    simp +contextual [Monomial.pow]
  unfold Quantity.isDimensioned at dimensioned ⊢
  rw [isRaised.numerator, isRaised.denominator, Quantity.raisedProducts]
  split
  · rw [empty, empty, Bool.or_comm]
    exact dimensioned
  · rw [empty, empty]
    exact dimensioned

/-- Raising twice succeeds exactly if raising once to the product of the exponents does, and comes
to the same dimensions. -/
theorem power_power (numbered : table.Numbered) (isOver : base.IsOver table)
    (dimensioned : base.isDimensioned = true) {inner outer both : Float}
    (ofInner : Number.Denotes inner times) (ofOuter : Number.Denotes outer more)
    (ofBoth : Number.Denotes both (times * more : ℤ)) (nonzero : times ≠ 0) (further : more ≠ 0) :
    ((∃ twice, (base.power inner >>= fun once => once.power outer) = .ok twice) ↔
      ∃ raised, base.power both = .ok raised) ∧
    ∀ twice raised, (base.power inner >>= fun once => once.power outer) = .ok twice →
      base.power both = .ok raised →
      twice.numerator = raised.numerator ∧ twice.denominator = raised.denominator := by
  have product : times * more ≠ 0 := mul_ne_zero nonzero further
  have once {raised : Quantity} (h : base.power inner = .ok raised) :=
    isRaised_of_power numbered isOver dimensioned ofInner nonzero h
  constructor
  · rw [power_ok_iff numbered isOver dimensioned ofBoth product, Int.natAbs_mul]
    constructor
    · rintro ⟨twice, h⟩
      obtain ⟨raised, first, second⟩ := Except.bind_eq_ok.mp h
      obtain ⟨fits, isRaised⟩ := once first
      rw [← isRaised.powerFits_iff]
      exact (power_ok_iff numbered (isRaised.isOver isOver fits)
        (isRaised.isDimensioned nonzero dimensioned) ofOuter further).mp ⟨twice, second⟩
    · intro fits
      -- The first power has no more copies than both together.
      have fewer : base.PowerFits times.natAbs :=
        fits.mono numbered isOver (Nat.le_mul_of_pos_right _ (Int.natAbs_pos.mpr further))
      obtain ⟨raised, first⟩ :=
        (power_ok_iff numbered isOver dimensioned ofInner nonzero).mpr fewer
      have isRaised := (once first).2
      obtain ⟨twice, second⟩ := (power_ok_iff numbered (isRaised.isOver isOver fewer)
        (isRaised.isDimensioned nonzero dimensioned) ofOuter further).mpr
          (isRaised.powerFits_iff.mpr fits)
      exact ⟨twice, Except.bind_eq_ok.mpr ⟨raised, first, second⟩⟩
  · intro twice atOnce h whole
    obtain ⟨raised, first, second⟩ := Except.bind_eq_ok.mp h
    obtain ⟨fits, isRaised⟩ := once first
    have again := (isRaised_of_power numbered (isRaised.isOver isOver fits)
      (isRaised.isDimensioned nonzero dimensioned) ofOuter further second).2
    have direct := (isRaised_of_power numbered isOver dimensioned ofBoth product whole).2
    have same := isRaised.raisedProducts nonzero further
    constructor
    · rw [again.numerator, direct.numerator, same]
    · rw [again.denominator, direct.denominator, same]

/-- A quantity over a table that has dimensions is raised to an integer other than zero exactly if
both of its products, raised so often, stay within their bound, which is exactly if copy after copy
can be taken in; it overflows otherwise. It then has so many copies of its dimensions, which change
sides below zero, and the flags of its base. Fractions and NaN are no exponents, infinities overflow,
and raising twice is raising once to the product of the exponents. -/
theorem power_exact (reached : table.Reached) (isOver : base.IsOver table)
    (dimensioned : base.isDimensioned = true) :
    (∀ (exponent : Float) (times : ℤ), Number.Denotes exponent times → times ≠ 0 →
      ((∃ raised, base.power exponent = .ok raised) ↔
        base.numerator.product ^ times.natAbs < 2 ^ 128 ∧
          base.denominator.product ^ times.natAbs < 2 ^ 128) ∧
      ((∃ raised, base.power exponent = .ok raised) ↔
        ∃ both, base.expand times.natAbs = .ok both) ∧
      (∀ raised, base.power exponent = .ok raised → base.IsRaised times raised) ∧
      ∀ error, base.power exponent = .error error → error = .overflow) ∧
    (∀ exponent : Float, Number.exact exponent = .nan →
      base.power exponent = .error (.nonIntegerExponent exponent)) ∧
    (∀ (exponent : Float) (value : ℚ), Number.Denotes exponent value → value.den ≠ 1 →
      base.power exponent = .error (.nonIntegerExponent exponent)) ∧
    (∀ (exponent : Float) (negative : Bool), Number.exact exponent = .infinite negative →
      base.power exponent = .error .overflow) ∧
    ∀ (inner outer both : Float) (times more : ℤ), Number.Denotes inner times →
      Number.Denotes outer more → Number.Denotes both (times * more : ℤ) → times ≠ 0 → more ≠ 0 →
      ((∃ twice, (base.power inner >>= fun once => once.power outer) = .ok twice) ↔
        ∃ raised, base.power both = .ok raised) ∧
      ∀ twice raised, (base.power inner >>= fun once => once.power outer) = .ok twice →
        base.power both = .ok raised →
        twice.numerator = raised.numerator ∧ twice.denominator = raised.denominator := by
  have numbered := reached.numbered
  refine ⟨fun exponent times denotes nonzero => ⟨?_, ?_, ?_, ?_⟩, ?_, ?_, ?_, ?_⟩
  · exact power_ok_iff numbered isOver dimensioned denotes nonzero
  · rw [expand_ok_iff numbered isOver]
    exact power_ok_iff numbered isOver dimensioned denotes nonzero
  · intro raised h
    exact (isRaised_of_power numbered isOver dimensioned denotes nonzero h).2
  · intro error failed
    rcases power_of_denotes numbered isOver dimensioned denotes nonzero with
      ⟨_, raised, h, _⟩ | ⟨_, h⟩
    · rw [failed] at h
      cases h
    · rw [failed] at h
      cases h
      rfl
  · intro exponent nan
    have fractional : Number.toInt? exponent = none := by
      rw [Number.toInt?, nan]
      rfl
    rw [power_of_toInt?_eq_none dimensioned fractional, Number.isInfinite, nan]
    rfl
  · intro exponent value denotes fractional
    rw [power_of_toInt?_eq_none dimensioned (denotes.toInt?_eq_none fractional),
      denotes.isInfinite_eq_false]
    rfl
  · intro exponent negative infinite
    have fractional : Number.toInt? exponent = none := by
      rw [Number.toInt?, infinite]
      rfl
    rw [power_of_toInt?_eq_none dimensioned fractional, Number.isInfinite, infinite]
    rfl
  · intro inner outer both times more ofInner ofOuter ofBoth nonzero further
    exact power_power numbered isOver dimensioned ofInner ofOuter ofBoth nonzero further

/-- A velocity to the power minus two, at once and in two steps. -/
theorem exists_inverse_square_of_velocity :
    let meter : Dimension := ⟨"meter", some "m", 2⟩
    let second : Dimension := ⟨"second", some "s", 5⟩
    let velocity : Quantity :=
      { unknown with numerator := ⟨[meter], 2⟩, denominator := ⟨[second], 5⟩, isVector := true }
    ∃ raised twice, velocity.power (-2.0) = .ok raised ∧
      raised.numerator = ⟨[second, second], 25⟩ ∧ raised.denominator = ⟨[meter, meter], 4⟩ ∧
      raised.isVector = true ∧ raised.hasValue = false ∧
      (velocity.power (-1.0) >>= fun once => once.power 2.0) = .ok twice ∧
      twice.numerator = raised.numerator := by
  intro meter second velocity
  have single (dimension : Dimension) (member : dimension ∈ Table.si.dimensions) :
      (⟨[dimension], dimension.prime⟩ : Monomial).IsOver .si :=
    Monomial.isOver_singleton Table.numbered_si member
  have isOver : velocity.IsOver .si :=
    ⟨single meter (by simp [meter, Table.si]), single second (by simp [second, Table.si])⟩
  have inner : Number.Denotes (-1.0) (-1 : ℤ) :=
    Number.toInt?_eq_some_iff.mp (by decide +kernel)
  have outer : Number.Denotes 2.0 (2 : ℤ) := Number.toInt?_eq_some_iff.mp (by decide +kernel)
  have both : Number.Denotes (-2.0) (-1 * 2 : ℤ) :=
    Number.toInt?_eq_some_iff.mp (by decide +kernel)
  obtain ⟨raises, _, _, _, again⟩ := power_exact .si isOver rfl
  obtain ⟨succeeds, _, results, _⟩ := raises (-2.0) (-1 * 2) both (by decide)
  obtain ⟨together, agree⟩ :=
    again (-1.0) 2.0 (-2.0) (-1) 2 inner outer both (by decide) (by decide)
  obtain ⟨raised, h⟩ := succeeds.mpr (by decide)
  obtain ⟨twice, more⟩ := together.mpr ⟨raised, h⟩
  have isRaised := results raised h
  exact ⟨raised, twice, h, isRaised.numerator, isRaised.denominator, isRaised.isVector,
    isRaised.hasValue, more, (agree twice raised more h).1⟩

end Quantity

end Dimensional
