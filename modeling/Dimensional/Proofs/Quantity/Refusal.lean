import Dimensional.Proofs.Quantity.Insertion

/-! What is left of a term that did not take in a factor. The value and the vectors of a refused
factor count like those of one that was taken in; its dimensions count in part. -/

namespace Dimensional.Term

open Factors

variable {term begun after : Term} {op : MulOp} {factor first : Quantity} {factors : Factors}
  {error : AlgebraError} {negated : Bool}

section Placing

variable {quantity placed : Quantity} {dimensions : List Dimension}

/-- All dimensions are put on one side, and nothing else changes. -/
theorem place_eq_ok (h : place quantity op dimensions = .ok placed) :
    (∃ monomial, quantity.numerator.append dimensions = .ok monomial ∧
      placed = { quantity with numerator := monomial }) ∨
    ∃ monomial, quantity.denominator.append dimensions = .ok monomial ∧
      placed = { quantity with denominator := monomial } := by
  cases op with
  | times =>
    obtain ⟨monomial, appended, rfl⟩ := Except.map_eq_ok.mp h
    exact .inl ⟨monomial, appended, rfl⟩
  | «over» =>
    obtain ⟨monomial, appended, rfl⟩ := Except.map_eq_ok.mp h
    exact .inr ⟨monomial, appended, rfl⟩

theorem append_self_iff {monomial longer : Monomial}
    (h : monomial.append dimensions = .ok longer) : longer = monomial ↔ dimensions = [] := by
  unfold Monomial.append at h
  split at h
  · rename_i product multiplied
    cases h
    constructor
    · intro same
      simpa using congrArg Monomial.factors same
    · rintro rfl
      cases multiplied
      simp
  · cases h

/-- Placing no dimensions is all that changes nothing. -/
theorem place_self_iff (h : place quantity op dimensions = .ok placed) :
    placed = quantity ↔ dimensions = [] := by
  obtain ⟨monomial, appended, rfl⟩ | ⟨monomial, appended, rfl⟩ := place_eq_ok h
  · rw [← append_self_iff appended]
    exact ⟨congrArg Quantity.numerator, fun same => by rw [same]⟩
  · rw [← append_self_iff appended]
    exact ⟨congrArg Quantity.denominator, fun same => by rw [same]⟩

theorem isVector_of_place (h : place quantity op dimensions = .ok placed) :
    placed.isVector = quantity.isVector := by
  obtain ⟨_, _, rfl⟩ | ⟨_, _, rfl⟩ := place_eq_ok h <;> rfl

end Placing

/-- The ways to refuse a factor, with the error and with what is left of the term. -/
inductive Refuses (term : Term) (op : MulOp) (factor : Quantity) : AlgebraError → Term → Prop where
  | secondVector (vector : factor.isVector) (counted : 0 < term.vectors) :
      Refuses term op factor (.vectorProduct op)
        { term.scaled op factor with vectors := term.vectors + 1 }
  | above (single : factor.isVector → term.vectors = 0)
      (failed : place ((term.scaled op factor).marked factor).quantity op
        factor.numerator.factors = .error .overflow) :
      Refuses term op factor .overflow ((term.scaled op factor).marked factor)
  /-- The dimensions that were placed already are not taken back. -/
  | below (single : factor.isVector → term.vectors = 0) {placed : Quantity}
      (done : place ((term.scaled op factor).marked factor).quantity op
        factor.numerator.factors = .ok placed)
      (failed : place placed op.inverse factor.denominator.factors = .error .overflow) :
      Refuses term op factor .overflow
        { (term.scaled op factor).marked factor with quantity := placed }

@[simp] theorem quantity_scaled : (term.scaled op factor).quantity = term.quantity := by
  unfold scaled
  split <;> rfl

@[simp] theorem allConstant_scaled : (term.scaled op factor).allConstant = term.allConstant := by
  unfold scaled
  split <;> rfl

theorem absorb_second (vector : factor.isVector) (counted : 0 < term.vectors) :
    term.absorb op factor =
      (.error (.vectorProduct op), { term with vectors := term.vectors + 1 }) := by
  unfold absorb
  rw [if_pos vector]
  exact if_pos counted

theorem absorb_single (single : factor.isVector → term.vectors = 0) :
    term.absorb op factor = (term.marked factor).absorbDimensions op factor := by
  unfold absorb marked
  by_cases vector : factor.isVector
  · have none : ¬ 0 < term.vectors := by
      rw [single vector]
      exact Nat.lt_irrefl 0
    rw [if_pos vector, if_pos vector]
    exact if_neg none
  · rw [if_neg vector, if_neg vector]

/-- Nothing else can come of a factor that is not taken in. -/
theorem refuses_of_apply (failed : term.apply op factor = (.error error, after)) :
    term.Refuses op factor error after := by
  rw [apply_eq] at failed
  by_cases second : factor.isVector ∧ 0 < term.vectors
  · obtain ⟨vector, counted⟩ := second
    rw [absorb_second vector (by rwa [vectors_scaled]), vectors_scaled] at failed
    cases failed
    exact .secondVector vector counted
  · have single (vector : factor.isVector) : term.vectors = 0 :=
      Nat.eq_zero_of_not_pos fun counted => second ⟨vector, counted⟩
    rw [absorb_single (by rwa [vectors_scaled]), absorbDimensions] at failed
    cases placing : place ((term.scaled op factor).marked factor).quantity op
        factor.numerator.factors with
    | error reason =>
      rw [placing] at failed
      obtain rfl := place_failsOnly _ placing
      cases failed
      exact .above single placing
    | ok placed =>
      rw [placing] at failed
      dsimp only at failed
      cases further : place placed op.inverse factor.denominator.factors with
      | error reason =>
        rw [further] at failed
        obtain rfl := place_failsOnly _ further
        cases failed
        exact .below single placing further
      | ok both =>
        rw [further] at failed
        cases failed

/-- A term after one call after another, whether it took the factors in or refused them. -/
def attempt (term : Term) (factors : Factors) : Term :=
  factors.foldl (fun term factor => (term.apply factor.1 factor.2).2) term

/-- What calls do to a term whether they succeed or fail. -/
structure Counts (term : Term) (factors : Factors) (after : Term) : Prop where
  vectors : after.vectors = term.vectors + factors.vectors
  coefficient : after.coefficient = factors.scale term.coefficient
  hasNumber : after.hasNumber = (term.hasNumber || factors.any fun factor => factor.2.hasValue)

/-- A chain that holds a vector is a vector. -/
def IsMarked (term : Term) : Prop := term.quantity.isVector = decide (0 < term.vectors)

theorem absorbDimensions_keeps (term : Term) (op : MulOp) (factor : Quantity) :
    let after := (term.absorbDimensions op factor).2
    after.vectors = term.vectors ∧ after.coefficient = term.coefficient ∧
      after.hasNumber = term.hasNumber ∧ after.quantity.isVector = term.quantity.isVector := by
  dsimp only
  unfold absorbDimensions
  cases placing : place term.quantity op factor.numerator.factors with
  | error reason => exact ⟨rfl, rfl, rfl, rfl⟩
  | ok placed =>
    dsimp only
    cases further : place placed op.inverse factor.denominator.factors with
    | error reason => exact ⟨rfl, rfl, rfl, isVector_of_place placing⟩
    | ok both =>
      exact ⟨rfl, rfl, rfl, (isVector_of_place further).trans (isVector_of_place placing)⟩

/-- Vectors count and mark a chain even if they are refused. The value is left alone. -/
theorem absorb_keeps (term : Term) (op : MulOp) (factor : Quantity) :
    let after := (term.absorb op factor).2
    after.vectors = term.vectors + Factors.vectors [(op, factor)] ∧
      after.coefficient = term.coefficient ∧ after.hasNumber = term.hasNumber ∧
      (term.IsMarked → after.IsMarked) := by
  dsimp only
  by_cases second : factor.isVector ∧ 0 < term.vectors
  · obtain ⟨vector, counted⟩ := second
    rw [absorb_second vector counted]
    refine ⟨by simp [Factors.vectors, vector], rfl, rfl, fun marked => ?_⟩
    unfold IsMarked at marked ⊢
    simpa [counted] using marked
  · have single (vector : factor.isVector) : term.vectors = 0 :=
      Nat.eq_zero_of_not_pos fun counted => second ⟨vector, counted⟩
    obtain ⟨vectors, coefficient, hasNumber, isVector⟩ :=
      absorbDimensions_keeps (term.marked factor) op factor
    rw [absorb_single single]
    rw [marked_eq] at vectors coefficient hasNumber isVector ⊢
    refine ⟨?_, coefficient, hasNumber, fun marked => ?_⟩
    · rw [vectors]
      simp [Factors.vectors, List.countP_cons]
    · unfold IsMarked at marked ⊢
      rw [vectors, isVector]
      cases vector : factor.isVector <;> simp [marked]

theorem isMarked_scaled (marked : term.IsMarked) : (term.scaled op factor).IsMarked := by
  unfold IsMarked at marked ⊢
  rwa [quantity_scaled, vectors_scaled]

theorem coefficient_scaled :
    (term.scaled op factor).coefficient = Factors.scale term.coefficient [(op, factor)] := by
  rw [scale_cons, scaled, apply_ite Term.coefficient, op.apply_eq_skippingZero]
  rfl

theorem hasNumber_scaled :
    (term.scaled op factor).hasNumber = (term.hasNumber || factor.hasValue) := by
  unfold scaled
  cases factor.hasValue <;> simp

theorem counts_of_apply (term : Term) (op : MulOp) (factor : Quantity) :
    term.Counts [(op, factor)] (term.apply op factor).2 ∧
      (term.IsMarked → (term.apply op factor).2.IsMarked) := by
  obtain ⟨vectors, coefficient, hasNumber, marks⟩ :=
    absorb_keeps (term.scaled op factor) op factor
  rw [apply_eq]
  refine ⟨⟨?_, coefficient.trans coefficient_scaled, ?_⟩, fun marked => ?_⟩
  · rw [vectors, vectors_scaled]
  · rw [hasNumber, hasNumber_scaled, List.any_cons, List.any_nil, Bool.or_false]
  · exact marks (isMarked_scaled marked)

theorem Counts.trans {middle : Term} {others : Factors} (first : term.Counts factors middle)
    (later : middle.Counts others after) : term.Counts (factors ++ others) after where
  vectors := by rw [later.vectors, first.vectors, vectors_append, Nat.add_assoc]
  coefficient := by
    rw [later.coefficient, first.coefficient, scale, scale, scale, known_append, List.foldl_append]
  hasNumber := by rw [later.hasNumber, first.hasNumber, List.any_append, Bool.or_assoc]

theorem counts_of_attempt (term : Term) (factors : Factors) :
    term.Counts factors (term.attempt factors) ∧
      (term.IsMarked → (term.attempt factors).IsMarked) := by
  induction factors generalizing term with
  | nil => exact ⟨⟨rfl, rfl, (Bool.or_false _).symm⟩, id⟩
  | cons factor factors ih =>
    obtain ⟨one, marks⟩ := counts_of_apply term factor.1 factor.2
    obtain ⟨others, keeps⟩ := ih (term.apply factor.1 factor.2).2
    exact ⟨one.trans others, fun marked => keeps (marks marked)⟩

theorem isMarked_of_ofFactor (started : ofFactor negated first = .ok begun) : begun.IsMarked := by
  rw [ofFactor_eq] at started
  obtain ⟨_, _, rfl⟩ := Except.map_eq_ok.mp started
  refine (absorb_keeps _ _ _).2.2.2 ?_
  split <;> rfl

section Unchanged

variable (refuses : term.Refuses op factor error after)

include refuses

theorem Refuses.allConstant : after.allConstant = term.allConstant := by
  cases refuses with
  | secondVector => exact allConstant_scaled
  | above => rw [marked_eq]; exact allConstant_scaled
  | below => rw [marked_eq]; exact allConstant_scaled

theorem Refuses.error_cases :
    error = .vectorProduct op ∧ factor.isVector ∧ 0 < term.vectors ∨
      error = .overflow ∧ (factor.isVector → term.vectors = 0) := by
  cases refuses with
  | secondVector vector counted => exact .inl ⟨rfl, vector, counted⟩
  | above single => exact .inr ⟨rfl, single⟩
  | below single => exact .inr ⟨rfl, single⟩

/-- The dimensions and the mark of a vector stay as they are if nothing was placed. -/
theorem Refuses.quantity_eq_iff (marked : term.IsMarked) :
    after.quantity = term.quantity ↔
      (error = .overflow → factor.isVector = false ∧
        (factor.numerator.factors = [] ∨
          place term.quantity op factor.numerator.factors = .error .overflow)) := by
  have unmarked (single : factor.isVector → term.vectors = 0) (vector : factor.isVector) :
      term.quantity.isVector = false := by
    rw [marked, single vector]
    rfl
  have plain (vector : factor.isVector = false) :
      ((term.scaled op factor).marked factor).quantity = term.quantity := by
    rw [marked_eq, quantity_scaled]
    simp [vector]
  have vectorial (vector : factor.isVector) :
      ((term.scaled op factor).marked factor).quantity.isVector = true := by
    rw [marked_eq]
    simp [vector]
  cases refuses with
  | secondVector =>
    rw [quantity_scaled]
    exact ⟨fun _ => nofun, fun _ => rfl⟩
  | above single failed =>
    cases vector : factor.isVector with
    | true =>
      constructor
      · intro same
        have both := vectorial vector
        rw [same, unmarked single vector] at both
        cases both
      · intro kept
        exact nomatch (kept rfl).1
    | false =>
      rw [plain vector] at failed ⊢
      exact ⟨fun _ _ => ⟨rfl, .inr failed⟩, fun _ => rfl⟩
  | below single done failed =>
    dsimp only
    cases vector : factor.isVector with
    | true =>
      constructor
      · intro same
        have both := vectorial vector
        rw [← isVector_of_place done, same, unmarked single vector] at both
        cases both
      · intro kept
        exact nomatch (kept rfl).1
    | false =>
      rw [plain vector] at done
      rw [place_self_iff done, done]
      exact ⟨fun none _ => ⟨rfl, .inl none⟩, fun kept => (kept rfl).2.resolve_right nofun⟩

/-- Only the products of dimensions and the mark of a vector can differ. -/
theorem Refuses.quantity_eq :
    after.quantity = { term.quantity with
      numerator := after.quantity.numerator, denominator := after.quantity.denominator
      isVector := after.quantity.isVector } := by
  have marked : ((term.scaled op factor).marked factor).quantity =
      { term.quantity with isVector := term.quantity.isVector || factor.isVector } := by
    rw [marked_eq, quantity_scaled]
  cases refuses with
  | secondVector =>
    dsimp only
    rw [quantity_scaled]
  | above => rw [marked]
  | below _ done _ =>
    rw [marked] at done
    obtain ⟨_, _, rfl⟩ | ⟨_, _, rfl⟩ := place_eq_ok done <;> rfl

theorem Refuses.finish_eq_iff : after.finish = term.finish ↔
    after.quantity = term.quantity ∧ after.hasNumber = term.hasNumber ∧
      after.value = term.value := by
  constructor
  · intro same
    refine ⟨?_, congrArg Quantity.hasValue same, congrArg Quantity.value same⟩
    have numerator : after.finish.numerator = term.finish.numerator := by rw [same]
    have denominator : after.finish.denominator = term.finish.denominator := by rw [same]
    have isVector : after.finish.isVector = term.finish.isVector := by rw [same]
    dsimp only [finish] at numerator denominator isVector
    rw [refuses.quantity_eq, numerator, denominator, isVector]
  · rintro ⟨quantity, hasNumber, value⟩
    unfold finish
    rw [quantity, hasNumber, value, refuses.allConstant]

end Unchanged

namespace Counts

variable (counts : term.Counts [(op, factor)] after)

include counts

theorem value_eq_iff : after.value = term.value ↔
    (factor.hasValue →
      skippingZero op.operation term.coefficient factor.value = term.value) := by
  have coefficient := counts.coefficient
  have hasNumber := counts.hasNumber
  rw [scale_cons] at coefficient
  rw [List.any_cons, List.any_nil, Bool.or_false] at hasNumber
  cases known : factor.hasValue with
  | true =>
    rw [known] at coefficient hasNumber
    rw [show after.value = after.coefficient by simp [value, hasNumber], coefficient]
    exact ⟨fun same _ => same, fun same => same rfl⟩
  | false =>
    rw [known] at coefficient hasNumber
    have same : after.value = term.value := by
      unfold value
      rw [coefficient, hasNumber, Bool.or_false]
      rfl
    exact ⟨fun _ => nofun, fun _ => same⟩

theorem known_eq_iff : after.hasNumber = term.hasNumber ∧ after.value = term.value ↔
    (factor.hasValue →
      term.hasNumber ∧
        skippingZero op.operation term.coefficient factor.value = term.coefficient) := by
  rw [counts.value_eq_iff, counts.hasNumber, List.any_cons, List.any_nil, Bool.or_false]
  unfold value
  cases factor.hasValue <;> cases term.hasNumber <;> simp

end Counts

/-- What a refused factor leaves behind, whatever was taken in or refused before. All vectors and all
known values count, also those of refused factors, and the term is the same as before exactly if
there was nothing to count and nothing was placed. -/
theorem refused_effect (started : ofFactor negated first = .ok begun)
    (failed : (begun.attempt factors).apply op factor = (.error error, after)) :
    let term := begun.attempt factors
    (error = .vectorProduct op ∧ factor.isVector ∧ 0 < term.vectors ∨
      error = .overflow ∧ (factor.isVector → term.vectors = 0)) ∧
    (after.vectors = Factors.vectors ((.times, first) :: factors ++ [(op, factor)]) ∧
      after.hasNumber = (((.times, first) :: factors ++ [(op, factor)]).any fun factor =>
        factor.2.hasValue) ∧
      after.coefficient =
        Factors.scale (first.scalar.signed negated).value (factors ++ [(op, factor)])) ∧
    (after.vectors = term.vectors ↔ factor.isVector = false) ∧
    (after.value = term.value ↔
      (factor.hasValue →
      skippingZero op.operation term.coefficient factor.value = term.value)) ∧
    (after.finish = term.finish ↔
      (factor.hasValue →
        term.hasNumber ∧
          skippingZero op.operation term.coefficient factor.value = term.coefficient) ∧
      (error = .overflow → factor.isVector = false ∧
        (factor.numerator.factors = [] ∨
          place term.quantity op factor.numerator.factors = .error .overflow))) := by
  have refuses := refuses_of_apply failed
  obtain ⟨before, keeps⟩ := counts_of_attempt begun factors
  have counts := (counts_of_apply (begun.attempt factors) op factor).1
  rw [failed] at counts
  have all := before.trans counts
  refine ⟨refuses.error_cases, ⟨?_, ?_, ?_⟩, ?_, counts.value_eq_iff, ?_⟩
  · rw [all.vectors, (vectors_of_ofFactor started).1, List.cons_append]
    exact vectors_cons.symm
  · have known : begun.hasNumber = first.hasValue :=
      congrArg Scalar.hasValue (scalar_of_ofFactor started)
    rw [all.hasNumber, known, List.cons_append, List.any_cons]
  · have signed : begun.coefficient = (first.scalar.signed negated).value :=
      congrArg Scalar.value (scalar_of_ofFactor started)
    rw [all.coefficient, signed]
  · rw [counts.vectors]
    cases vector : factor.isVector <;> simp [Factors.vectors, vector]
  · rw [refuses.finish_eq_iff, refuses.quantity_eq_iff (keeps (isMarked_of_ofFactor started)),
      counts.known_eq_iff]
    exact and_comm

/-- Two masses for each radian, multiplied into a term with as many radians below the line as there
can be: no vector is counted, but the masses are placed and the two is multiplied. -/
theorem exists_refused_above_kept :
    let mass : Dimension := ⟨"kilogram", some "kg", 3⟩
    let angle : Dimension := ⟨"radian", some "rad", 2⟩
    let narrow : Quantity :=
      { Quantity.constant 5.0 with denominator := .of (List.replicate 127 angle) }
    let density : Quantity :=
      { Quantity.constant 2.0 with numerator := .of [mass], denominator := .of [angle] }
    ∃ term after, ofFactor false narrow = .ok term ∧
      (term.attempt []).apply .times density = (.error .overflow, after) ∧
      after.vectors = term.vectors ∧ term.value = 5.0 ∧ after.value = 10.0 ∧
      after.finish ≠ term.finish ∧ after.quantity.numerator.factors = [mass] := by
  intro mass angle narrow density
  let begun : Term :=
    { quantity := { Quantity.unknown with denominator := narrow.denominator }
      coefficient := 5.0, hasNumber := true, allConstant := true, vectors := 0 }
  let left : Term :=
    { begun with
      coefficient := 10.0, quantity := { begun.quantity with numerator := .of [mass] } }
  have started : ofFactor false narrow = .ok begun := by decide +kernel
  have failed : (begun.attempt []).apply .times density = (.error .overflow, left) := by
    decide +kernel
  obtain ⟨-, -, vectors, -, finish⟩ := refused_effect started failed
  refine ⟨begun, left, started, failed, vectors.mpr rfl, rfl, rfl, fun same => ?_, rfl⟩
  obtain ⟨-, doubled⟩ := (finish.mp same).1 rfl
  exact absurd doubled (by decide +kernel)

/-- A vector worth three, multiplied by itself, is refused. Both count all the same, and what the
term is worth is not what it was. -/
theorem exists_refused_vector_counted :
    let arrow : Quantity := { Quantity.constant 3.0 with isVector := true }
    ∃ term after, ofFactor false arrow = .ok term ∧
      term.apply .times arrow = (.error (.vectorProduct .times), after) ∧
      term.vectors = 1 ∧ after.vectors = 2 ∧ term.value = 3.0 ∧ after.value = 9.0 ∧
      term.finish.value = 3.0 ∧ after.finish.value = 9.0 :=
  ⟨_, _, rfl, rfl, rfl, rfl, by decide +kernel, by decide +kernel, by decide +kernel,
    by decide +kernel⟩

end Dimensional.Term
