import Dimensional.Proofs.Number.Product
import Dimensional.Proofs.Quantity.Scale

/-! The leading part of a term in parentheses. What it comes to can be taken up again as the first
factor of the rest, which makes no difference but to a sign that no known factor has taken up. -/

namespace Dimensional

namespace Monomial

variable {monomial result : Monomial} {dimensions : List Dimension}

theorem append_eq_ok : monomial.append dimensions = .ok result ↔
    ∃ product, multiply? monomial.product dimensions = some product ∧
      result = ⟨monomial.factors ++ dimensions, product⟩ := by
  unfold append
  cases multiply? monomial.product dimensions with
  | none => simp
  | some product => simp [eq_comm]

/-- What was multiplied up from one can be multiplied up again. -/
theorem one_append_of_append (own : one.append monomial.factors = .ok monomial)
    (h : monomial.append dimensions = .ok result) : one.append result.factors = .ok result := by
  obtain ⟨product, multiplied, rfl⟩ := append_eq_ok.mp h
  obtain ⟨earlier, first, same⟩ := append_eq_ok.mp own
  have before : multiply? one.product monomial.factors = some monomial.product := by
    rw [first, same]
  have all : multiply? one.product (monomial.factors ++ dimensions) = some product := by
    unfold multiply? at before multiplied ⊢
    rw [List.foldlM_append, before]
    exact multiplied
  exact append_eq_ok.mpr ⟨product, all, rfl⟩

end Monomial

namespace Term

open Factors

variable {term after : Term} {op : MulOp} {factor first : Quantity} {factors : Factors}
  {negated : Bool}

/-- A term that its own result can begin again: its products are multiplied up from one, and it has
counted no vectors but one that it holds. -/
structure Resumable (term : Term) : Prop where
  quantity : term.quantity =
    { Quantity.unknown with
      numerator := term.quantity.numerator
      denominator := term.quantity.denominator
      isVector := term.quantity.isVector }
  numerator : Monomial.one.append term.quantity.numerator.factors = .ok term.quantity.numerator
  denominator :
    Monomial.one.append term.quantity.denominator.factors = .ok term.quantity.denominator
  vectors : term.vectors = if term.quantity.isVector then 1 else 0

theorem resumable_start : (start negated).Resumable := ⟨rfl, rfl, rfl, rfl⟩

theorem Resumable.scaled (resumable : term.Resumable) : (term.scaled op factor).Resumable := by
  unfold Term.scaled
  split
  · exact ⟨resumable.quantity, resumable.numerator, resumable.denominator, resumable.vectors⟩
  · exact resumable

theorem Resumable.absorb (resumable : term.Resumable)
    (h : settled (term.absorb op factor) = .ok after) : after.Resumable := by
  obtain ⟨second, above, below, first, other, rfl⟩ := settled_absorb_eq_ok.mp h
  rw [marked_eq]
  refine ⟨?_, ?_, ?_, ?_⟩
  · have quantity := resumable.quantity
    rw [withProducts, quantity]
  · exact Monomial.one_append_of_append resumable.numerator first
  · exact Monomial.one_append_of_append resumable.denominator other
  · by_cases vector : factor.isVector = true
    · have none : term.vectors = 0 := Nat.eq_zero_of_not_pos fun counted => second ⟨vector, counted⟩
      simp [withProducts, vector, none]
    · simp [withProducts, vector, resumable.vectors]

theorem Resumable.apply (resumable : term.Resumable)
    (h : settled (term.apply op factor) = .ok after) : after.Resumable := by
  rw [apply_eq] at h
  exact resumable.scaled.absorb h

theorem resumable_of_ofFactor (h : ofFactor negated first = .ok term) : term.Resumable := by
  rw [ofFactor_eq] at h
  refine Resumable.absorb ?_ h
  split
  · exact ⟨rfl, rfl, rfl, rfl⟩
  · exact resumable_start

/-- Every term of some factors can begin again. -/
theorem resumable_of_ofFactors (h : ofFactors negated first factors = .ok term) :
    term.Resumable := by
  obtain ⟨begun, started, applied⟩ := Except.bind_eq_ok.mp h
  exact Except.foldlM_preserves (fun _ _ _ _ resumable step => resumable.apply step)
    (resumable_of_ofFactor started) applied

/-- What a term is apart from its value, it is again when its own result begins it. -/
theorem Resumable.absorb_finish (resumable : term.Resumable) (coefficient : Float)
    (hasNumber : Bool) :
    settled (Term.absorb { start false with coefficient, hasNumber } .times term.finish) =
      .ok { term with coefficient, hasNumber } := by
  have first : ¬ (term.finish.isVector ∧ 0 < (start false).vectors) :=
    fun both => Nat.not_lt_zero _ both.2
  refine settled_absorb_eq_ok.mpr
    ⟨first, _, _, resumable.numerator, resumable.denominator, ?_⟩
  rw [marked_eq]
  refine (Term.mk.injEq ..).mpr ⟨resumable.quantity, rfl, rfl, ?_, ?_⟩
  · exact (Bool.true_and _).symm
  · exact resumable.vectors.trans (Nat.zero_add _).symm

/-- Taken up again, a term has forgotten its sign if none of its factors was known. -/
theorem Resumable.ofFactor_finish (resumable : term.Resumable) :
    Term.ofFactor false term.finish =
      .ok { term with coefficient := if term.hasNumber then term.coefficient else 1.0 } := by
  rw [ofFactor_eq]
  cases known : term.hasNumber with
  | false =>
    have unknown : ¬ term.finish.hasValue = true := Bool.eq_false_iff.mp known
    have begun : settled ((start false).absorb .times term.finish) =
        .ok { term with coefficient := 1.0, hasNumber := false } := resumable.absorb_finish 1.0 false
    rw [if_neg unknown, begun, if_neg Bool.false_ne_true, ← known]
  | true =>
    have value : (start false).coefficient * term.finish.value = term.coefficient := by
      change 1.0 * (if term.hasNumber then term.coefficient else 0.0) = term.coefficient
      rw [if_pos known, Number.one_mul]
    have counts : term.finish.hasValue = true := known
    rw [if_pos counts, value, resumable.absorb_finish, if_pos rfl, ← known]

/-- Nothing but a coefficient depends on a coefficient. -/
theorem absorb_coefficient (h : settled (term.absorb op factor) = .ok after) (coefficient : Float) :
    settled (Term.absorb { term with coefficient } op factor) = .ok { after with coefficient } := by
  obtain ⟨second, above, below, first, other, rfl⟩ := settled_absorb_eq_ok.mp h
  refine settled_absorb_eq_ok.mpr ⟨second, above, below, first, other, ?_⟩
  rw [marked_eq, marked_eq]
  rfl

theorem apply_coefficient (h : settled (term.apply op factor) = .ok after) (coefficient : Float) :
    ∃ last, settled (Term.apply { term with coefficient } op factor) =
      .ok { after with coefficient := last } := by
  rw [apply_eq] at h ⊢
  unfold Term.scaled at h ⊢
  by_cases known : factor.hasValue
  · rw [if_pos known] at h ⊢
    exact ⟨_, absorb_coefficient h (op.apply coefficient factor.value)⟩
  · rw [if_neg known] at h ⊢
    exact ⟨_, absorb_coefficient h coefficient⟩

theorem applyAll_coefficient (h : term.applyAll factors = .ok after) (coefficient : Float) :
    ∃ last, Term.applyAll { term with coefficient } factors =
      .ok { after with coefficient := last } := by
  induction factors generalizing term coefficient with
  | nil =>
    cases h
    exact ⟨coefficient, rfl⟩
  | cons factor factors ih =>
    rw [applyAll, List.foldlM_cons] at h
    obtain ⟨next, applied, rest⟩ := Except.bind_eq_ok.mp h
    obtain ⟨coefficient, same⟩ := apply_coefficient applied coefficient
    obtain ⟨last, all⟩ := ih rest coefficient
    refine ⟨last, ?_⟩
    rw [applyAll, List.foldlM_cons]
    exact Except.bind_eq_ok.mpr ⟨_, same, all⟩

/-- Without a known factor the coefficient is a sign. -/
theorem coefficient_of_unknown (h : ofFactors negated first factors = .ok term)
    (unknown : term.hasNumber = false) :
    term.coefficient = if negated then -1.0 else 1.0 := by
  have none : known ((.times, first) :: factors) = [] := by
    rw [hasNumber_of_ofFactors h] at unknown
    simpa using unknown
  obtain ⟨ofFirst, ofRest⟩ := List.forall_mem_cons.mp (known_eq_nil_iff.mp none)
  have signed : (first.scalar.signed negated).value = if negated then -1.0 else 1.0 :=
    if_neg (Bool.eq_false_iff.mp ofFirst)
  rw [coefficient_of_ofFactors h, scale, known_eq_nil_iff.mpr ofRest, signed]
  rfl

section Grouping

variable {leading rest : Factors} {part whole : Term}

/-- The result of the leading part begins a term that differs from the whole in its coefficient at
most, and not even in that if the coefficient of the part was kept. -/
theorem exists_grouped (started : ofFactors negated first leading = .ok part)
    (applied : part.applyAll rest = .ok whole) :
    ∃ last, ofFactors false part.finish rest = .ok { whole with coefficient := last } ∧
      (part.hasNumber = true ∨ part.coefficient = 1.0 → last = whole.coefficient) := by
  have begun := (resumable_of_ofFactors started).ofFactor_finish
  obtain ⟨last, all⟩ := applyAll_coefficient applied
    (if part.hasNumber then part.coefficient else 1.0)
  refine ⟨last, Except.bind_eq_ok.mpr ⟨_, begun, all⟩, fun kept => ?_⟩
  have same : (if part.hasNumber then part.coefficient else 1.0) = part.coefficient := by
    rcases kept with known | one
    · exact if_pos known
    · rw [one, ite_self]
  have folded : last = rest.scale _ := coefficient_of_applyAll all
  rw [folded, same, coefficient_of_applyAll applied]

/-- The leading part of a term may be put in parentheses: the term then succeeds with the same result
but for its value. The value is the same too if there is no leading minus, if the part has a known
factor, or if the rest has none. -/
theorem ofFactors_grouped (h : ofFactors negated first (leading ++ rest) = .ok whole) :
    ∃ part grouped, ofFactors negated first leading = .ok part ∧
      ofFactors false part.finish rest = .ok grouped ∧
      grouped.finish = { whole.finish with value := grouped.finish.value } ∧
      (negated = false ∨ (∃ factor ∈ (.times, first) :: leading, factor.2.hasValue = true) ∨
          (∀ factor ∈ rest, factor.2.hasValue = false) →
        grouped.finish.value = whole.finish.value) := by
  obtain ⟨begun, ofFirst, applied⟩ := Except.bind_eq_ok.mp h
  rw [applyAll, List.foldlM_append] at applied
  obtain ⟨part, ofLeading, ofRest⟩ := Except.bind_eq_ok.mp applied
  have started : ofFactors negated first leading = .ok part :=
    Except.bind_eq_ok.mpr ⟨begun, ofFirst, ofLeading⟩
  obtain ⟨last, grouped, kept⟩ := exists_grouped started ofRest
  refine ⟨part, _, started, grouped, rfl, fun condition => ?_⟩
  have values (same : part.hasNumber = true ∨ part.coefficient = 1.0) :
      (finish { whole with coefficient := last }).value = whole.finish.value := by
    rw [kept same]
  cases some : part.hasNumber with
  | true => exact values (.inl some)
  | false =>
    rcases condition with positive | ⟨factor, member, known⟩ | unknown
    · have one := coefficient_of_unknown started some
      rw [positive] at one
      exact values (.inr one)
    · rw [hasNumber_of_ofFactors started, ← any_hasValue_eq, List.any_eq_false] at some
      exact absurd known (some factor member)
    · have none : whole.hasNumber = false := by
        have join : whole.hasNumber = (part.hasNumber || rest.any fun factor => factor.2.hasValue) :=
          (scalar_of_applyAll ofRest).2
        rw [join, some, Bool.false_or, List.any_eq_false]
        simpa using unknown
      rw [finish, finish, value, value, none]
      rfl

end Grouping

/-- The terms `-2 * kg / 4` and `(-2 * kg) / 4`. -/
theorem exists_quotient_grouped :
    let mass : Quantity := .ofDimension ⟨"kilogram", some "kg", 3⟩
    ∃ whole part grouped,
      ofFactors true (.constant 2.0) ([(.times, mass)] ++ [(.over, .constant 4.0)]) = .ok whole ∧
      whole.finish.value = -0.5 ∧
      ofFactors true (.constant 2.0) [(.times, mass)] = .ok part ∧
      ofFactors false part.finish [(.over, .constant 4.0)] = .ok grouped ∧
      grouped.finish = whole.finish := by
  intro mass
  obtain ⟨whole, h, half⟩ : ∃ whole,
      ofFactors true (.constant 2.0) ([(.times, mass)] ++ [(.over, .constant 4.0)]) = .ok whole ∧
        whole.finish.value = -0.5 := ⟨_, rfl, by decide +kernel⟩
  obtain ⟨part, grouped, started, resumed, same, value⟩ := ofFactors_grouped h
  have unsigned : grouped.finish.value = whole.finish.value :=
    value (.inr (.inl ⟨(.times, .constant 2.0), List.mem_cons_self, rfl⟩))
  refine ⟨whole, part, grouped, h, half, started, resumed, ?_⟩
  rw [same, unsigned]

/-- The term `-kg * 2` is negative, but `(-kg) * 2` is not: a mass of unknown value has no sign. -/
theorem exists_sign_lost_by_grouping :
    let mass : Quantity := .ofDimension ⟨"kilogram", some "kg", 3⟩
    ∃ whole part grouped, ofFactors true mass ([] ++ [(.times, .constant 2.0)]) = .ok whole ∧
      ofFactors true mass [] = .ok part ∧
      ofFactors false part.finish [(.times, .constant 2.0)] = .ok grouped ∧
      whole.finish.value = -2.0 ∧ grouped.finish.value = 2.0 ∧
      grouped.finish.value ≠ whole.finish.value :=
  ⟨_, _, _, rfl, rfl, rfl, by decide +kernel, by decide +kernel, by decide +kernel⟩

end Term

end Dimensional
