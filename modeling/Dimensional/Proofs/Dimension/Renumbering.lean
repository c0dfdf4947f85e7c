import Dimensional.Proofs.Monomial
import Dimensional.Scope.Description

/-! Tables of the same dimensions under other primes. Which of them is used cannot be told from
products of dimensions but by an overflow. -/

namespace Dimensional

/-- A dimension without its prime. -/
def Dimension.erased (dimension : Dimension) : Dimension := { dimension with prime := 0 }

/-- The same dimension in two tables, up to its prime. -/
structure Dimension.Renumbered (left right : Table) (dimension other : Dimension) : Prop where
  member : dimension ∈ left.dimensions
  otherMember : other ∈ right.dimensions
  erased : dimension.erased = other.erased

namespace Table

variable {table left right extended : Table} {dimension : Dimension} {name key : String}
  {symbol? : Option String} {dimensions : List Dimension}

/-- At most one dimension answers to a key. -/
def Distinct (table : Table) : Prop :=
  ∀ dimension ∈ table.dimensions, ∀ other ∈ table.dimensions, ∀ key,
    dimension.answersTo key = true → other.answersTo key = true → dimension = other

theorem answersTo_name : dimension.answersTo dimension.name = true := by
  simp [Dimension.answersTo]

theorem answersTo_of_get? (found : table.get? key = some dimension) :
    dimension.answersTo key = true := by
  have answers := List.find?_some found
  exact answers

theorem Distinct.get?_eq (distinct : table.Distinct) (member : dimension ∈ table.dimensions)
    (answers : dimension.answersTo key = true) : table.get? key = some dimension := by
  cases found : table.get? key with
  | none =>
    have silent := List.find?_eq_none.mp found dimension member
    exact absurd answers silent
  | some other =>
    have present := List.mem_of_find?_eq_some found
    rw [distinct other present dimension member key (answersTo_of_get? found) answers]

theorem distinct_empty : empty.Distinct := by
  intro dimension member
  cases member

theorem Distinct.insert (distinct : table.Distinct)
    (h : table.insert name symbol? = .ok (dimension, extended)) : extended.Distinct := by
  obtain ⟨free, rfl, rfl, _, same⟩ := insert_eq_ok h
  have fresh (other : Dimension) (member : other ∈ table.dimensions) (key : String)
      (answers : other.answersTo key = true) (own : dimension.answersTo key = true) : False := by
    have taken : (table.get? key).isSome := get?_isSome_iff.mpr ⟨other, member, answers⟩
    unfold taken? at free
    simp only [Dimension.answersTo, Bool.or_eq_true, beq_iff_eq] at own
    split at free
    · cases free
    · rename_i unnamed
      rcases own with rfl | symbol
      · exact unnamed taken
      · simp [symbol, Option.isSome_iff_ne_none.mp taken] at free
  intro first member second other key ofFirst ofSecond
  rw [same, List.mem_append, List.mem_singleton] at member other
  rcases member with member | rfl <;> rcases other with other | rfl
  · exact distinct first member second other key ofFirst ofSecond
  · exact (fresh first member key ofFirst ofSecond).elim
  · exact (fresh second other key ofSecond ofFirst).elim
  · rfl

/-- The dimensions under their names, as they are found again without their primes. -/
theorem Distinct.filterMap_erased (distinct : table.Distinct)
    (members : dimensions ⊆ table.dimensions) :
    (dimensions.map Dimension.erased).filterMap (fun dimension => table.get? dimension.name) =
      dimensions := by
  induction dimensions with
  | nil => rfl
  | cons dimension dimensions ih =>
    obtain ⟨first, rest⟩ := List.cons_subset.mp members
    have found : table.get? dimension.erased.name = some dimension :=
      distinct.get?_eq first answersTo_name
    rw [List.map_cons, List.filterMap_cons, found, ih rest]

/-- Primes do not matter to whether dimensions of a table are the same, each as often. -/
theorem Distinct.perm_erased_iff {others : List Dimension} (distinct : table.Distinct)
    (members : dimensions ⊆ table.dimensions) (present : others ⊆ table.dimensions) :
    (dimensions.map Dimension.erased).Perm (others.map Dimension.erased) ↔
      dimensions.Perm others := by
  constructor
  · intro same
    have found := same.filterMap fun dimension => table.get? dimension.name
    rwa [distinct.filterMap_erased members, distinct.filterMap_erased present] at found
  · exact fun same => same.map _

/-- Two tables of the same dimensions, declared in other orders. -/
structure Renumbered (left right : Table) : Prop where
  numbered : left.Numbered
  otherNumbered : right.Numbered
  distinct : left.Distinct
  otherDistinct : right.Distinct
  same : (left.dimensions.map Dimension.erased).Perm (right.dimensions.map Dimension.erased)

namespace Renumbered

theorem symm (renumbered : left.Renumbered right) : right.Renumbered left :=
  ⟨renumbered.otherNumbered, renumbered.numbered, renumbered.otherDistinct, renumbered.distinct,
    renumbered.same.symm⟩

/-- What answers to a key has a counterpart in the other table that answers to it. -/
theorem get?_eq_some (renumbered : left.Renumbered right) (found : left.get? key = some dimension) :
    ∃ other, right.get? key = some other ∧ dimension.Renumbered left right other := by
  have present := List.mem_of_find?_eq_some found
  obtain ⟨other, member, same⟩ :=
    List.mem_map.mp (renumbered.same.subset (List.mem_map_of_mem present))
  have answers : other.answersTo key = true := by
    obtain ⟨name, symbol?, _⟩ := Dimension.mk.inj same
    rw [Dimension.answersTo, name, symbol?]
    exact answersTo_of_get? found
  exact ⟨other, renumbered.otherDistinct.get?_eq member answers, present, member, same.symm⟩

/-- The same keys are answered to, by the same dimensions up to their primes. -/
theorem get?_rel (renumbered : left.Renumbered right) (key : String) :
    Option.Rel (Dimension.Renumbered left right) (left.get? key) (right.get? key) := by
  cases found : left.get? key with
  | some dimension =>
    obtain ⟨other, counterpart, same⟩ := renumbered.get?_eq_some found
    rw [counterpart]
    exact .some same
  | none =>
    cases other : right.get? key with
    | none => exact .none
    | some dimension =>
      obtain ⟨_, counterpart, _⟩ := renumbered.symm.get?_eq_some other
      rw [found] at counterpart
      cases counterpart

end Renumbered

end Table

namespace Monomial

/-- A product without primes. -/
def erased (monomial : Monomial) : Monomial := ⟨monomial.factors.map Dimension.erased, 0⟩

/-- Products over two tables of the same dimensions in the same order. -/
structure Renumbered (left right : Table) (monomial other : Monomial) : Prop where
  isOver : monomial.IsOver left
  otherOver : other.IsOver right
  factors : monomial.factors.map Dimension.erased = other.factors.map Dimension.erased

variable {left right : Table} {monomial other second otherSecond : Monomial}
  {dimensions others : List Dimension}

theorem renumbered_one : one.Renumbered left right one := ⟨isOver_one, isOver_one, rfl⟩

/-- Both tables may grow. -/
theorem Renumbered.mono {leftExtended rightExtended : Table}
    (alike : monomial.Renumbered left right other)
    (grows : left.dimensions ⊆ leftExtended.dimensions)
    (otherGrows : right.dimensions ⊆ rightExtended.dimensions) :
    monomial.Renumbered leftExtended rightExtended other :=
  ⟨alike.isOver.mono grows, alike.otherOver.mono otherGrows, alike.factors⟩

namespace Renumbered

variable (tables : left.Renumbered right) (alike : monomial.Renumbered left right other)

include tables

/-- Unless a product overflows, the same dimensions can be multiplied by. -/
theorem append (alike : monomial.Renumbered left right other)
    (members : dimensions ⊆ left.dimensions) (present : others ⊆ right.dimensions)
    (same : dimensions.map Dimension.erased = others.map Dimension.erased) :
    (monomial.append dimensions).Alike (· = .overflow) (Renumbered left right)
      (other.append others) := by
  rw [append_eq tables.numbered alike.isOver members,
    append_eq tables.otherNumbered alike.otherOver present]
  split
  · split
    · rename_i fits alsoFits
      refine .ok ⟨⟨List.append_subset.mpr ⟨alike.isOver.member, members⟩, rfl, fits⟩,
        ⟨List.append_subset.mpr ⟨alike.otherOver.member, present⟩, rfl, alsoFits⟩, ?_⟩
      rw [List.map_append, List.map_append, alike.factors, same]
    · exact .right rfl
  · exact .left rfl

/-- The same product can be multiplied by. -/
theorem multiply (alike : monomial.Renumbered left right other)
    (more : second.Renumbered left right otherSecond) :
    (monomial.append second.factors).Alike (· = .overflow) (Renumbered left right)
      (other.append otherSecond.factors) :=
  alike.append tables more.isOver.member more.otherOver.member more.factors

/-- Two products are multiplied by two others. -/
theorem multiplyBoth {above below otherAbove otherBelow : Monomial}
    (firsts : monomial.Renumbered left right other)
    (seconds : second.Renumbered left right otherSecond)
    (uppers : above.Renumbered left right otherAbove)
    (lowers : below.Renumbered left right otherBelow) :
    Except.Alike (· = AlgebraError.overflow)
      (fun both same : Monomial × Monomial =>
        both.1.Renumbered left right same.1 ∧ both.2.Renumbered left right same.2)
      (do
        let first ← monomial.append above.factors
        let last ← second.append below.factors
        .ok (first, last))
      (do
        let first ← other.append otherAbove.factors
        let last ← otherSecond.append otherBelow.factors
        .ok (first, last)) := by
  refine (firsts.multiply tables uppers).bind fun _ _ _ _ first => ?_
  exact (seconds.multiply tables lowers).bind fun _ _ _ _ last => .ok ⟨first, last⟩

include alike

/-- Products of primes are equal in one table exactly when they are in the other. -/
theorem product_eq_iff (more : second.Renumbered left right otherSecond) :
    monomial.product = second.product ↔ other.product = otherSecond.product := by
  rw [Monomial.product_eq_iff tables.numbered alike.isOver more.isOver,
    Monomial.product_eq_iff tables.otherNumbered alike.otherOver more.otherOver,
    ← tables.distinct.perm_erased_iff alike.isOver.member more.isOver.member,
    ← tables.otherDistinct.perm_erased_iff alike.otherOver.member more.otherOver.member,
    alike.factors, more.factors]

omit tables in
theorem isEmpty_eq : monomial.factors.isEmpty = other.factors.isEmpty := by
  rw [← List.isEmpty_map (f := Dimension.erased), alike.factors, List.isEmpty_map]

omit tables in
theorem text_eq : monomial.text = other.text := by
  have label (dimensions : List Dimension) :
      dimensions.map Dimension.label = (dimensions.map Dimension.erased).map Dimension.label := by
    rw [List.map_map]
    rfl
  unfold text
  rw [label monomial.factors, label other.factors, alike.factors]

omit tables in
theorem erased_eq : monomial.erased = other.erased :=
  congrArg (Monomial.mk · 0) alike.factors

end Renumbered

end Monomial

end Dimensional
