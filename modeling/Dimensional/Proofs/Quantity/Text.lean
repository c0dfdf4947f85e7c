import Dimensional.Proofs.Dimension.Declarations
import Dimensional.Proofs.Parting
import Dimensional.Proofs.Quantity.Built

/-! Dimensions as text. Where no label of a table is taken for a part of the notation, the text of a
quantity tells its dimensions on both sides of the line, each in its place. -/

namespace Dimensional

namespace Dimension

/-- A label that is read as one: it is not what is written for no dimension at all, and there is
neither a sign of multiplication in it nor a blank, as there are around the line. A label may be
empty, and a slash is only taken for the line between blanks. -/
structure IsLegible (dimension : Dimension) : Prop where
  notUnit : dimension.label ≠ "1"
  noSign : '*' ∉ dimension.label.toList
  noBlank : ' ' ∉ dimension.label.toList

instance (dimension : Dimension) : Decidable dimension.IsLegible :=
  decidable_of_iff (dimension.label ≠ "1" ∧ '*' ∉ dimension.label.toList ∧
    ' ' ∉ dimension.label.toList) ⟨fun ⟨notUnit, noSign, noBlank⟩ => ⟨notUnit, noSign, noBlank⟩,
      fun ⟨notUnit, noSign, noBlank⟩ => ⟨notUnit, noSign, noBlank⟩⟩

theorem answersTo_label (dimension : Dimension) :
    dimension.answersTo dimension.label = true := by
  unfold answersTo label
  cases dimension.symbol? <;> simp

end Dimension

namespace Table

variable {table : Table} {dimensions others : List Dimension}

theorem Reached.orderly (reached : table.Reached) : table.Orderly := by
  induction reached with
  | empty => exact orderly_empty
  | si => exact orderly_si
  | insert _ h ih => exact ih.insert h

/-- The dimensions behind their labels, as they are found again. -/
theorem Distinct.filterMap_label (distinct : table.Distinct)
    (members : dimensions ⊆ table.dimensions) :
    (dimensions.map Dimension.label).filterMap table.get? = dimensions := by
  induction dimensions with
  | nil => rfl
  | cons dimension dimensions ih =>
    obtain ⟨first, rest⟩ := List.cons_subset.mp members
    rw [List.map_cons, List.filterMap_cons, distinct.get?_eq first dimension.answersTo_label,
      ih rest]

/-- Labels tell the dimensions of a table. -/
theorem Distinct.eq_of_labels (distinct : table.Distinct) (members : dimensions ⊆ table.dimensions)
    (present : others ⊆ table.dimensions)
    (same : dimensions.map Dimension.label = others.map Dimension.label) : dimensions = others := by
  rw [← distinct.filterMap_label members, ← distinct.filterMap_label present, same]

end Table

variable {table : Table}

namespace Monomial

variable {monomial left right : Monomial}

/-- The text above the line, where a product is written even if it has no factors. -/
def shown (monomial : Monomial) : String :=
  if monomial.factors.isEmpty then "1" else monomial.text

theorem shown_of_nil (none : monomial.factors = []) : monomial.shown = "1" := by
  rw [shown, none]
  rfl

theorem shown_of_ne_nil (some : monomial.factors ≠ []) : monomial.shown = monomial.text :=
  if_neg (List.isEmpty_iff.not.mpr some)

/-- The labels are found between the signs. -/
theorem splitOn_text (some : monomial.factors ≠ [])
    (legible : ∀ dimension ∈ monomial.factors, dimension.IsLegible) :
    monomial.text.toList.splitOn '*' =
      (monomial.factors.map Dimension.label).map String.toList := by
  rw [text, String.toList_intercalate]
  refine List.splitOn_intercalate '*' ?_ (by simpa using some)
  rw [List.map_map, List.forall_mem_map]
  exact fun dimension member => (legible dimension member).noSign

/-- A product of some dimensions is not taken for one of none. -/
theorem text_ne_unit (some : monomial.factors ≠ [])
    (legible : ∀ dimension ∈ monomial.factors, dimension.IsLegible) : monomial.text ≠ "1" := by
  intro same
  have labels := splitOn_text some legible
  rw [same] at labels
  have single : (monomial.factors.map Dimension.label).map String.toList = ["1".toList] :=
    labels.symm
  obtain ⟨label, one, isUnit⟩ := List.map_eq_singleton_iff.mp single
  obtain ⟨dimension, all, rfl⟩ := List.map_eq_singleton_iff.mp one
  exact (legible dimension (all ▸ List.mem_cons_self)).notUnit (String.toList_inj.mp isUnit)

/-- No label brings a blank into the text of a product. -/
theorem blank_not_mem_shown (legible : ∀ dimension ∈ monomial.factors, dimension.IsLegible) :
    ' ' ∉ monomial.shown.toList := by
  by_cases none : monomial.factors = []
  · rw [shown_of_nil none]
    decide
  · rw [shown_of_ne_nil none, text, String.toList_intercalate]
    intro member
    rcases mem_intercalate member with between | ⟨label, present, inLabel⟩
    · exact absurd between (by decide)
    · rw [List.map_map] at present
      obtain ⟨dimension, isFactor, rfl⟩ := List.mem_map.mp present
      exact (legible dimension isFactor).noBlank inLabel

/-- The text above the line tells the labels, also where there are none. -/
theorem labels_eq_of_shown (ofLeft : ∀ dimension ∈ left.factors, dimension.IsLegible)
    (ofRight : ∀ dimension ∈ right.factors, dimension.IsLegible) (same : left.shown = right.shown) :
    left.factors.map Dimension.label = right.factors.map Dimension.label := by
  by_cases first : left.factors = [] <;> by_cases second : right.factors = []
  · rw [first, second]
  · rw [shown_of_nil first, shown_of_ne_nil second] at same
    exact absurd same.symm (text_ne_unit second ofRight)
  · rw [shown_of_ne_nil first, shown_of_nil second] at same
    exact absurd same (text_ne_unit first ofLeft)
  · rw [shown_of_ne_nil first, shown_of_ne_nil second] at same
    have labels := splitOn_text first ofLeft
    rw [same, splitOn_text second ofRight] at labels
    exact List.map_injective_iff.mpr (fun _ _ => String.toList_inj.mp) labels.symm

/-- Over a table of legible labels, equal texts are of the same dimensions in the same order. -/
theorem shown_eq_iff (distinct : table.Distinct)
    (legible : ∀ dimension ∈ table.dimensions, dimension.IsLegible)
    (ofLeft : left.factors ⊆ table.dimensions) (ofRight : right.factors ⊆ table.dimensions) :
    left.shown = right.shown ↔ left.factors = right.factors := by
  constructor
  · intro same
    refine distinct.eq_of_labels ofLeft ofRight (labels_eq_of_shown ?_ ?_ same)
    · exact fun dimension member => legible dimension (ofLeft member)
    · exact fun dimension member => legible dimension (ofRight member)
  · intro same
    rw [shown, shown, text, text, same]

end Monomial

namespace Quantity

variable {quantity left right : Quantity}

theorem dimensionText_of_nil (none : quantity.denominator.factors = []) :
    quantity.dimensionText = quantity.numerator.shown :=
  if_pos (List.isEmpty_iff.mpr none)

/-- The line has a blank on both sides. -/
theorem toList_dimensionText (some : quantity.denominator.factors ≠ []) :
    quantity.dimensionText.toList = quantity.numerator.shown.toList ++
      ' ' :: ("/ ".toList ++ quantity.denominator.shown.toList) := by
  have parts : quantity.dimensionText =
      quantity.numerator.shown ++ " / " ++ quantity.denominator.text :=
    if_neg (List.isEmpty_iff.not.mpr some)
  rw [parts, Monomial.shown_of_ne_nil some, String.toList_append, String.toList_append,
    List.append_assoc]
  rfl

/-- There is a blank in the text exactly if there is something below the line. -/
theorem blank_mem_dimensionText_iff
    (legible : ∀ dimension ∈ quantity.numerator.factors, dimension.IsLegible) :
    ' ' ∈ quantity.dimensionText.toList ↔ quantity.denominator.factors ≠ [] := by
  by_cases none : quantity.denominator.factors = []
  · rw [dimensionText_of_nil none]
    exact iff_of_false (Monomial.blank_not_mem_shown legible) (not_not_intro none)
  · rw [toList_dimensionText none]
    exact iff_of_true (List.mem_append_right _ List.mem_cons_self) none

/-- The first blank tells the texts on both sides of the line apart. -/
theorem shown_eq_of_dimensionText
    (ofLeft : ∀ dimension ∈ left.numerator.factors, dimension.IsLegible)
    (ofRight : ∀ dimension ∈ right.numerator.factors, dimension.IsLegible)
    (same : left.dimensionText = right.dimensionText) :
    left.numerator.shown = right.numerator.shown ∧
      left.denominator.shown = right.denominator.shown := by
  have blanks := blank_mem_dimensionText_iff ofLeft
  rw [same, blank_mem_dimensionText_iff ofRight, not_iff_not] at blanks
  by_cases none : left.denominator.factors = []
  · have alsoNone := blanks.mpr none
    rw [dimensionText_of_nil none, dimensionText_of_nil alsoNone] at same
    rw [Monomial.shown_of_nil none, Monomial.shown_of_nil alsoNone]
    exact ⟨same, rfl⟩
  · have alsoSome := blanks.not.mpr none
    rw [← String.toList_inj, toList_dimensionText none, toList_dimensionText alsoSome] at same
    obtain ⟨above, _, below⟩ := eq_of_append_cons (p := (· ≠ ' '))
      (fun c member blank => Monomial.blank_not_mem_shown ofLeft (blank ▸ member))
      (fun c member blank => Monomial.blank_not_mem_shown ofRight (blank ▸ member))
      (not_not_intro rfl) (not_not_intro rfl) same
    exact ⟨String.toList_inj.mp above, String.toList_inj.mp (List.append_cancel_left below)⟩

/-- Over a table of legible labels, equal texts are of the same dimensions in the same order on both
sides of the line. -/
theorem dimensionText_eq_iff (distinct : table.Distinct)
    (legible : ∀ dimension ∈ table.dimensions, dimension.IsLegible)
    (ofLeft : left.IsOver table) (ofRight : right.IsOver table) :
    left.dimensionText = right.dimensionText ↔
      left.numerator.factors = right.numerator.factors ∧
        left.denominator.factors = right.denominator.factors := by
  constructor
  · intro same
    obtain ⟨above, below⟩ := shown_eq_of_dimensionText
      (fun dimension member => legible dimension (ofLeft.numerator.member member))
      (fun dimension member => legible dimension (ofRight.numerator.member member)) same
    rw [Monomial.shown_eq_iff distinct legible ofLeft.numerator.member ofRight.numerator.member]
      at above
    rw [Monomial.shown_eq_iff distinct legible ofLeft.denominator.member
      ofRight.denominator.member] at below
    exact ⟨above, below⟩
  · rintro ⟨above, below⟩
    rw [dimensionText, dimensionText, Monomial.text, Monomial.text, Monomial.text, Monomial.text,
      above, below]

/-- A sum can only fail because of the dimensions of its sides, and says which these are. -/
theorem add_eq_error {op : AddOp} {error : AlgebraError} (h : left.add op right = .error error) :
    left.sameDimensions right = false ∧
      error = .dimensionMismatch left.dimensionText right.dimensionText := by
  unfold add ensureSameDimensions at h
  split at h
  · cases h
  · rename_i differ
    cases h
    exact ⟨Bool.eq_false_iff.mpr differ, rfl⟩

/-- The text of a quantity tells its dimensions, as long as the labels of the table are legible: two
texts are equal exactly if the dimensions on each side of the line are, one by one. So a sum that
fails because of its dimensions shows different texts for its two sides. -/
theorem Built.tells_dimensions (reached : table.Reached)
    (legible : ∀ dimension ∈ table.dimensions, dimension.IsLegible)
    (ofLeft : Built table left) (ofRight : Built table right) :
    (left.dimensionText = right.dimensionText ↔
      left.numerator.factors = right.numerator.factors ∧
        left.denominator.factors = right.denominator.factors) ∧
    (∀ op error, left.add op right = .error error →
      error = .dimensionMismatch left.dimensionText right.dimensionText ∧
        left.dimensionText ≠ right.dimensionText) := by
  have overLeft := ofLeft.isOver reached.numbered
  have overRight := ofRight.isOver reached.numbered
  have texts := dimensionText_eq_iff reached.orderly.distinct legible overLeft overRight
  refine ⟨texts, fun op error h => ?_⟩
  obtain ⟨differ, mismatch⟩ := add_eq_error h
  refine ⟨mismatch, fun same => ?_⟩
  obtain ⟨above, below⟩ := texts.mp same
  have alike : left.sameDimensions right = true :=
    (sameDimensions_iff reached.numbered overLeft overRight).mpr ⟨above ▸ .refl _, below ▸ .refl _⟩
  rw [differ] at alike
  cases alike

/-- Metres per second and seconds per metre. -/
theorem exists_mismatch_of_inverses :
    ∃ left right, Built .si left ∧ Built .si right ∧
      left.add .plus right = .error (.dimensionMismatch "m / s" "s / m") ∧
      left.dimensionText ≠ right.dimensionText := by
  let meter : Dimension := ⟨"meter", some "m", 2⟩
  let second : Dimension := ⟨"second", some "s", 5⟩
  have isMeter : meter ∈ Table.si.dimensions := by simp [Table.si, meter]
  have isSecond : second ∈ Table.si.dimensions := by simp [Table.si, second]
  have onlyMeter : [meter] ⊆ Table.si.dimensions := by simpa using isMeter
  have onlySecond : [second] ⊆ Table.si.dimensions := by simpa using isSecond
  have ofLeft : Built .si { ofDimension meter with denominator := ⟨[second], 5⟩ } :=
    .multiplyDenominator (.ofDimension isMeter) onlySecond rfl
  have ofRight : Built .si { ofDimension second with denominator := ⟨[meter], 2⟩ } :=
    .multiplyDenominator (.ofDimension isSecond) onlyMeter rfl
  have refused : ({ ofDimension meter with denominator := ⟨[second], 5⟩ } : Quantity).add .plus
      { ofDimension second with denominator := ⟨[meter], 2⟩ } =
        .error (.dimensionMismatch "m / s" "s / m") := by decide +kernel
  have told := Built.tells_dimensions .si (by decide) ofLeft ofRight
  exact ⟨_, _, ofLeft, ofRight, refused, (told.2 .plus _ refused).2⟩

end Quantity

end Dimensional
