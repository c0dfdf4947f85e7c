import Dimensional.Monomial
import Dimensional.Proofs.Dimension.Table
import Dimensional.Proofs.Except
import Mathlib.Data.Nat.Factors

/-! Products of the dimensions of a table. As long as they stay within their bound, products of
primes tell them apart. -/

namespace Dimensional

/-- The product of the primes of some dimensions. -/
def primeProduct (dimensions : List Dimension) : Nat := (dimensions.map Dimension.prime).prod

section PrimeProduct

variable {dimensions others : List Dimension} {dimension : Dimension}

@[simp] theorem primeProduct_nil : primeProduct [] = 1 := rfl

@[simp] theorem primeProduct_cons :
    primeProduct (dimension :: dimensions) = dimension.prime * primeProduct dimensions := by
  simp [primeProduct]

@[simp] theorem primeProduct_append :
    primeProduct (dimensions ++ others) = primeProduct dimensions * primeProduct others := by
  simp [primeProduct]

theorem primeProduct_flatten_replicate {times : Nat} :
    primeProduct (List.replicate times dimensions).flatten = primeProduct dimensions ^ times := by
  induction times with
  | zero => rfl
  | succ times ih => rw [List.replicate_succ, List.flatten_cons, primeProduct_append, ih, pow_succ']

theorem primeProduct_pos (positive : ∀ dimension ∈ dimensions, 0 < dimension.prime) :
    0 < primeProduct dimensions := by
  induction dimensions with
  | nil => exact Nat.one_pos
  | cons dimension dimensions ih =>
    obtain ⟨first, rest⟩ := List.forall_mem_cons.mp positive
    rw [primeProduct_cons]
    exact Nat.mul_pos first (ih rest)

end PrimeProduct

namespace Monomial

variable {table extended : Table} {monomial left right result : Monomial}
  {dimensions : List Dimension} {product : Nat}

theorem eq_one (empty : monomial.factors = []) (unit : monomial.product = 1) : monomial = .one := by
  cases monomial
  cases empty
  cases unit
  rfl

theorem multiply?_cons {dimension : Dimension} :
    multiply? product (dimension :: dimensions) =
      if product * dimension.prime < bound then multiply? (product * dimension.prime) dimensions
      else none := by
  unfold multiply?
  rw [List.foldlM_cons]
  split <;> rfl

/-- Only the whole product has to stay within the bound. -/
theorem multiply?_eq (positive : ∀ dimension ∈ dimensions, 0 < dimension.prime)
    (fits : product < bound) :
    multiply? product dimensions =
      if product * primeProduct dimensions < bound then some (product * primeProduct dimensions)
      else none := by
  induction dimensions generalizing product with
  | nil =>
    rw [primeProduct_nil, Nat.mul_one, if_pos fits]
    rfl
  | cons dimension dimensions ih =>
    obtain ⟨_, rest⟩ := List.forall_mem_cons.mp positive
    rw [multiply?_cons, primeProduct_cons, ← Nat.mul_assoc]
    split
    · rename_i smaller
      exact ih rest smaller
    · rename_i large
      have larger : ¬ product * dimension.prime * primeProduct dimensions < bound := by
        intro small
        exact large
          (Nat.lt_of_le_of_lt (Nat.le_mul_of_pos_right _ (primeProduct_pos rest)) small)
      rw [if_neg larger]

/-- Dimensions of a table, and the product of their primes. -/
structure IsOver (table : Table) (monomial : Monomial) : Prop where
  member : monomial.factors ⊆ table.dimensions
  product : monomial.product = primeProduct monomial.factors
  fits : monomial.product < bound

theorem isOver_one : one.IsOver table :=
  ⟨List.nil_subset _, rfl, by simp [one, bound]⟩

theorem isOver_singleton {dimension : Dimension} (numbered : table.Numbered)
    (member : dimension ∈ table.dimensions) :
    (⟨[dimension], dimension.prime⟩ : Monomial).IsOver table := by
  refine ⟨by simpa using member, by simp, ?_⟩
  exact Nat.lt_trans (numbered.fits dimension member) (by simp [bound])

/-- A table may grow. -/
theorem IsOver.mono (isOver : monomial.IsOver table)
    (grows : table.dimensions ⊆ extended.dimensions) : monomial.IsOver extended :=
  ⟨fun _ member => grows (isOver.member member), isOver.product, isOver.fits⟩

/-- Dimensions of the table can be multiplied by as long as the product stays within its bound. -/
theorem append_eq (numbered : table.Numbered) (isOver : monomial.IsOver table)
    (members : dimensions ⊆ table.dimensions) :
    monomial.append dimensions =
      if primeProduct (monomial.factors ++ dimensions) < bound then
        .ok ⟨monomial.factors ++ dimensions, primeProduct (monomial.factors ++ dimensions)⟩
      else .error .overflow := by
  have positive : ∀ dimension ∈ dimensions, 0 < dimension.prime :=
    fun dimension member => (numbered.prime dimension (members member)).pos
  unfold append
  rw [multiply?_eq positive isOver.fits, isOver.product, ← primeProduct_append]
  by_cases fits : primeProduct (monomial.factors ++ dimensions) < bound
  · rw [if_pos fits, if_pos fits]
  · rw [if_neg fits, if_neg fits]

theorem IsOver.append (numbered : table.Numbered) (isOver : monomial.IsOver table)
    (members : dimensions ⊆ table.dimensions) (h : monomial.append dimensions = .ok result) :
    result.IsOver table ∧ result.factors = monomial.factors ++ dimensions := by
  rw [append_eq numbered isOver members] at h
  split at h
  · rename_i fits
    cases h
    exact ⟨⟨List.append_subset.mpr ⟨isOver.member, members⟩, rfl, fits⟩, rfl⟩
  · cases h

/-- What is over the table already can be had again. -/
theorem one_append (numbered : table.Numbered) (isOver : monomial.IsOver table) :
    one.append monomial.factors = .ok monomial := by
  rw [append_eq numbered isOver_one isOver.member]
  simp only [one, List.nil_append, ← isOver.product, if_pos isOver.fits]

/-- Multiplying twice fails exactly when multiplying at once does. -/
theorem append_append (numbered : table.Numbered) (isOver : monomial.IsOver table)
    {others : List Dimension} (members : dimensions ⊆ table.dimensions)
    (more : others ⊆ table.dimensions) :
    (monomial.append dimensions >>= fun extended => extended.append others) =
      monomial.append (dimensions ++ others) := by
  have all : dimensions ++ others ⊆ table.dimensions := List.append_subset.mpr ⟨members, more⟩
  have positive : 0 < primeProduct others :=
    primeProduct_pos fun dimension member => (numbered.prime dimension (more member)).pos
  rw [append_eq numbered isOver members, append_eq numbered isOver all, ← List.append_assoc]
  by_cases fits : primeProduct (monomial.factors ++ dimensions) < bound
  · have extended : (⟨monomial.factors ++ dimensions,
        primeProduct (monomial.factors ++ dimensions)⟩ : Monomial).IsOver table :=
      ⟨List.append_subset.mpr ⟨isOver.member, members⟩, rfl, fits⟩
    rw [if_pos fits, Except.ok_bind, append_eq numbered extended more]
  · have larger : ¬ primeProduct (monomial.factors ++ dimensions ++ others) < bound := by
      intro small
      rw [primeProduct_append] at small
      exact fits (Nat.lt_of_le_of_lt (Nat.le_mul_of_pos_right _ positive) small)
    rw [if_neg fits, if_neg larger]
    rfl

/-- One factor is enough for a product of at least two. -/
theorem two_le_primeProduct (numbered : table.Numbered) (members : dimensions ⊆ table.dimensions)
    (some : dimensions ≠ []) : 2 ≤ primeProduct dimensions := by
  cases dimensions with
  | nil => exact absurd rfl some
  | cons dimension dimensions =>
    obtain ⟨first, rest⟩ := List.cons_subset.mp members
    have positive : 0 < primeProduct dimensions :=
      primeProduct_pos fun other member => (numbered.prime other (rest member)).pos
    rw [primeProduct_cons]
    exact Nat.le_trans (numbered.prime dimension first).two_le
      (Nat.le_mul_of_pos_right _ positive)

/-- The dimension of a table under a prime. -/
def dimensionOf? (table : Table) (prime : Nat) : Option Dimension :=
  table.dimensions.find? fun dimension => dimension.prime = prime

theorem dimensionOf?_prime {dimension : Dimension} (numbered : table.Numbered)
    (member : dimension ∈ table.dimensions) :
    dimensionOf? table dimension.prime = some dimension := by
  unfold dimensionOf?
  cases found : table.dimensions.find? fun other => other.prime = dimension.prime with
  | none =>
    have differs := List.find?_eq_none.mp found dimension member
    simp at differs
  | some other =>
    have same := List.find?_some found
    rw [numbered.eq_of_prime_eq (List.mem_of_find?_eq_some found) member (of_decide_eq_true same)]

theorem filterMap_dimensionOf? (numbered : table.Numbered)
    (members : dimensions ⊆ table.dimensions) :
    (dimensions.map Dimension.prime).filterMap (dimensionOf? table) = dimensions := by
  induction dimensions with
  | nil => rfl
  | cons dimension dimensions ih =>
    obtain ⟨first, rest⟩ := List.cons_subset.mp members
    rw [List.map_cons, List.filterMap_cons, dimensionOf?_prime numbered first, ih rest]

/-- Equal products come of the same dimensions, each as often. -/
theorem primeProduct_eq_iff {left right : List Dimension} (numbered : table.Numbered)
    (ofLeft : left ⊆ table.dimensions) (ofRight : right ⊆ table.dimensions) :
    primeProduct left = primeProduct right ↔ left.Perm right := by
  constructor
  · intro same
    have prime (dimensions : List Dimension) (members : dimensions ⊆ table.dimensions) :
        ∀ p ∈ dimensions.map Dimension.prime, p.Prime := by
      intro p member
      obtain ⟨dimension, present, rfl⟩ := List.mem_map.mp member
      exact numbered.prime dimension (members present)
    have leftFactors := Nat.primeFactorsList_unique rfl (prime left ofLeft)
    have rightFactors := Nat.primeFactorsList_unique same.symm (prime right ofRight)
    have primes := leftFactors.trans rightFactors.symm
    have dimensions := primes.filterMap (dimensionOf? table)
    rwa [filterMap_dimensionOf? numbered ofLeft, filterMap_dimensionOf? numbered ofRight]
      at dimensions
  · intro same
    exact (same.map Dimension.prime).prod_eq

theorem product_eq_iff (numbered : table.Numbered) (ofLeft : left.IsOver table)
    (ofRight : right.IsOver table) :
    left.product = right.product ↔ left.factors.Perm right.factors := by
  rw [ofLeft.product, ofRight.product]
  exact primeProduct_eq_iff numbered ofLeft.member ofRight.member

theorem product_eq_one_iff (numbered : table.Numbered) (isOver : monomial.IsOver table) :
    monomial.product = 1 ↔ monomial.factors = [] := by
  have none := product_eq_iff numbered isOver isOver_one
  exact none.trans List.perm_nil

end Monomial

end Dimensional
