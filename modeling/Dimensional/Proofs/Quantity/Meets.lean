import Dimensional.Proofs.Measure
import Dimensional.Proofs.Monomial

/-! Computations that succeed exactly when their judgements are defined, and quantities over a table
with the measures and values that they have. -/

namespace Dimensional

/-- A computation succeeds exactly when its judgement is defined, with values that belong
together. -/
def Meets (x : Except AlgebraError α) (judged : Option β) (relation : α → β → Prop) : Prop :=
  (∀ b, judged = some b → ∃ a, x = .ok a ∧ relation a b) ∧
    (judged = none → ∃ error, x = .error error)

namespace Meets

variable {x : Except AlgebraError α} {judged : Option β} {relation : α → β → Prop}

theorem ok {a : α} {b : β} (h : relation a b) : Meets (.ok a) (some b) relation := by
  constructor
  · intro b same
    cases same
    exact ⟨a, rfl, h⟩
  · intro none
    cases none

theorem error {error : AlgebraError} : Meets (.error error) (none : Option β) relation := by
  constructor
  · intro b some
    cases some
  · intro _
    exact ⟨error, rfl⟩

theorem of_ok {a : α} (meets : Meets x judged relation) (h : x = .ok a) :
    ∃ b, judged = some b ∧ relation a b := by
  cases judged with
  | none =>
    obtain ⟨error, failed⟩ := meets.2 rfl
    rw [failed] at h
    cases h
  | some b =>
    obtain ⟨a', reached, related⟩ := meets.1 b rfl
    rw [reached] at h
    cases h
    exact ⟨b, rfl, related⟩

theorem mapBoth {f : α → γ} {g : β → δ} {relation' : γ → δ → Prop}
    (meets : Meets x judged relation) (h : ∀ a b, relation a b → relation' (f a) (g b)) :
    Meets (x.map f) (judged.map g) relation' := by
  cases judged with
  | none =>
    obtain ⟨error, rfl⟩ := meets.2 rfl
    exact .error
  | some b =>
    obtain ⟨a, rfl, related⟩ := meets.1 b rfl
    exact .ok (h a b related)

theorem map {f : α → γ} {relation' : γ → β → Prop} (meets : Meets x judged relation)
    (h : ∀ a b, relation a b → relation' (f a) b) : Meets (x.map f) judged relation' := by
  have both := meets.mapBoth h (g := id)
  rwa [Option.map_id_fun, id] at both

theorem ok_iff (meets : Meets x judged relation) : (∃ a, x = .ok a) ↔ judged.isSome = true := by
  cases judged with
  | none =>
    obtain ⟨error, rfl⟩ := meets.2 rfl
    simp
  | some b =>
    obtain ⟨a, rfl, _⟩ := meets.1 b rfl
    simp

end Meets

theorem Measure.fits_iff {above below : List Dimension} {isVector : Bool} :
    (⟨above, below, isVector⟩ : Measure).Fits ↔
      primeProduct above < Monomial.bound ∧ primeProduct below < Monomial.bound := by
  simp [Fits, primeProduct]

namespace Quantity

/-- A quantity over a table. -/
structure IsOver (table : Table) (quantity : Quantity) : Prop where
  numerator : quantity.numerator.IsOver table
  denominator : quantity.denominator.IsOver table

/-- A quantity over a table that has a measure and a value. -/
structure Has (table : Table) (quantity : Quantity) (measure : Measure) (scalar : Scalar) :
    Prop where
  isOver : quantity.IsOver table
  measure : quantity.measure = measure
  scalar : quantity.scalar = scalar

variable {table extended : Table} {quantity : Quantity}

theorem IsOver.mono (isOver : quantity.IsOver table)
    (grows : table.dimensions ⊆ extended.dimensions) : quantity.IsOver extended :=
  ⟨isOver.numerator.mono grows, isOver.denominator.mono grows⟩

theorem IsOver.has (isOver : quantity.IsOver table) :
    quantity.Has table quantity.measure quantity.scalar :=
  ⟨isOver, rfl, rfl⟩

theorem IsOver.checked (isOver : quantity.IsOver table) :
    quantity.measure.checked = some quantity.measure := by
  have fits : quantity.measure.Fits := by
    refine Measure.fits_iff.mpr ⟨?_, ?_⟩
    · rw [← isOver.numerator.product]
      exact isOver.numerator.fits
    · rw [← isOver.denominator.product]
      exact isOver.denominator.fits
  exact if_pos fits

/-- Two products that are multiplied on succeed together exactly when the measure fits. -/
theorem append_both (numbered : table.Numbered) {above below : Monomial}
    (ofAbove : above.IsOver table) (ofBelow : below.IsOver table) {upper lower : List Dimension}
    (uppers : upper ⊆ table.dimensions) (lowers : lower ⊆ table.dimensions) (isVector : Bool) :
    Meets
      (do
        let above ← above.append upper
        let below ← below.append lower
        .ok (above, below))
      (⟨above.factors ++ upper, below.factors ++ lower, isVector⟩ : Measure).checked
      (fun both measure => both.1.IsOver table ∧ both.2.IsOver table ∧
        measure = ⟨both.1.factors, both.2.factors, isVector⟩) := by
  rw [Monomial.append_eq numbered ofAbove uppers, Monomial.append_eq numbered ofBelow lowers]
  unfold Measure.checked
  by_cases fits : (⟨above.factors ++ upper, below.factors ++ lower, isVector⟩ : Measure).Fits
  · obtain ⟨aboveFits, belowFits⟩ := Measure.fits_iff.mp fits
    rw [if_pos fits, if_pos aboveFits, if_pos belowFits]
    exact .ok ⟨⟨List.append_subset.mpr ⟨ofAbove.member, uppers⟩, rfl, aboveFits⟩,
      ⟨List.append_subset.mpr ⟨ofBelow.member, lowers⟩, rfl, belowFits⟩, rfl⟩
  · rw [if_neg fits]
    by_cases aboveFits : primeProduct (above.factors ++ upper) < Monomial.bound
    · have overflows : ¬ primeProduct (below.factors ++ lower) < Monomial.bound :=
        fun belowFits => fits (Measure.fits_iff.mpr ⟨aboveFits, belowFits⟩)
      rw [if_pos aboveFits, if_neg overflows]
      exact .error
    · rw [if_neg aboveFits]
      exact .error

end Quantity

end Dimensional
