import Dimensional.Proofs.Quantity.Factors

/-! The value of a term is that of its known factors alone, folded from left to right. -/

namespace Dimensional

namespace Factors

variable {factors others : Factors} {factor : MulOp × Quantity} {begun : Float}

/-- The factors whose value is known. -/
def known (factors : Factors) : Factors := factors.filter fun factor => factor.2.hasValue

/-- A value that is multiplied and divided by the known factors, one after the other. Zeros are
passed over. -/
def scale (begun : Float) (factors : Factors) : Float :=
  factors.known.foldl
    (fun value factor => skippingZero factor.1.operation value factor.2.value) begun

@[simp] theorem known_append : known (factors ++ others) = factors.known ++ others.known :=
  List.filter_append _ _

theorem known_cons_of_unknown (unknown : factor.2.hasValue = false) :
    known (factor :: factors) = factors.known :=
  List.filter_cons_of_neg (Bool.eq_false_iff.mp unknown)

theorem known_cons_congr (same : factors.known = others.known) :
    known (factor :: factors) = known (factor :: others) := by
  unfold known at same ⊢
  rw [List.filter_cons, List.filter_cons, same]

theorem known_eq_nil_iff : factors.known = [] ↔ ∀ factor ∈ factors, factor.2.hasValue = false := by
  simp [known]

theorem any_hasValue_eq :
    (factors.any fun factor => factor.2.hasValue) = !factors.known.isEmpty := by
  rw [Bool.eq_iff_iff]
  simp [known]

theorem scale_cons :
    scale begun (factor :: factors) =
      factors.scale (if factor.2.hasValue then
        skippingZero factor.1.operation begun factor.2.value else begun) := by
  unfold scale known
  rw [List.filter_cons]
  split <;> rfl

/-- What is not known does not count. -/
theorem scale_of_known_eq (same : factors.known = others.known) :
    factors.scale begun = others.scale begun := by
  unfold scale
  rw [same]

end Factors

namespace Term

open Factors

variable {term after : Term} {first : Quantity} {factors : Factors} {negated : Bool}

/-- One step of the fold for each factor. -/
theorem coefficient_of_applyAll (h : term.applyAll factors = .ok after) :
    after.coefficient = factors.scale term.coefficient := by
  induction factors generalizing term with
  | nil =>
    cases h
    rfl
  | cons factor factors ih =>
    rw [applyAll, List.foldlM_cons] at h
    obtain ⟨next, applied, rest⟩ := Except.bind_eq_ok.mp h
    have step : next.coefficient =
        if factor.2.hasValue then
          skippingZero factor.1.operation term.coefficient factor.2.value
        else term.coefficient :=
      congrArg Scalar.value (scalar_of_apply applied)
    rw [ih rest, step, scale_cons]

/-- A term is folded from its signed first factor on. -/
theorem coefficient_of_ofFactors (h : ofFactors negated first factors = .ok term) :
    term.coefficient = factors.scale (first.scalar.signed negated).value := by
  obtain ⟨begun, started, applied⟩ := Except.bind_eq_ok.mp h
  have sign : begun.coefficient = (first.scalar.signed negated).value :=
    congrArg Scalar.value (scalar_of_ofFactor started)
  rw [coefficient_of_applyAll applied, sign]

theorem hasNumber_of_ofFactors (h : ofFactors negated first factors = .ok term) :
    term.hasNumber = !(known ((.times, first) :: factors)).isEmpty := by
  rw [← any_hasValue_eq]
  exact (scalar_of_ofFactors h).2

end Term

end Dimensional
