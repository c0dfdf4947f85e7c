import Dimensional.Proofs.Quantity.Factors

/-! Quantities and terms at work. Whatever is done to them, and whatever of it fails, their products
of primes belong to their dimensions. -/

namespace Dimensional

/-- The sides of the line. -/
inductive Side where
  | above
  | below
deriving DecidableEq, Repr

namespace Quantity

def side (quantity : Quantity) : Side → Monomial
  | .above => quantity.numerator
  | .below => quantity.denominator

def withSide (quantity : Quantity) (monomial : Monomial) : Side → Quantity
  | .above => { quantity with numerator := monomial }
  | .below => { quantity with denominator := monomial }

/-- Multiply by further dimensions on one side of the line. -/
def extend (quantity : Quantity) (dimensions : List Dimension) : Side → Except AlgebraError Quantity
  | .above => quantity.multiplyNumerator dimensions
  | .below => quantity.multiplyDenominator dimensions

end Quantity

/-- The quantities and terms that calls have made so far. -/
structure Store where
  quantities : List Quantity
  terms : List Term

namespace Store

def empty : Store := ⟨[], []⟩

/-- Dimensions to multiply by: a single one, or those on one side of a quantity in the store. -/
inductive Supply where
  | single (dimension : Dimension)
  | copied (source : Nat) (side : Side)

/-- What can be done to quantities and terms, which are told by their places in the store. -/
inductive Call where
  | unknown
  | constant (value : Float)
  | ofDimension (dimension : Dimension)
  | copy (source : Nat)
  | copyBare (source : Nat)
  | relabel (target : Nat) (identifier? : Option String) (isVector isConstant hasValue : Bool)
      (value : Float)
  | extend (target : Nat) (side : Side) (supply : Supply)
  | add (left : Nat) (op : AddOp) (right : Nat)
  | power (base : Nat) (exponent : Float)
  | vectorProduct (op : VectorOp) (left right : Nat) (angle? : Option Dimension)
  | begin (negated : Bool) (first : Nat)
  | apply (target : Nat) (op : MulOp) (factor : Nat)
  | finish (source : Nat)

def Supply.dimensions? (supply : Supply) (store : Store) : Option (List Dimension) :=
  match supply with
  | .single dimension => some [dimension]
  | .copied source side => store.quantities[source]?.map fun quantity => (quantity.side side).factors

def setQuantity (store : Store) (target : Nat) (quantity : Quantity) : Store :=
  { store with quantities := store.quantities.set target quantity }

def addQuantity (store : Store) (quantity : Quantity) : Store :=
  { store with quantities := store.quantities ++ [quantity] }

def setTerm (store : Store) (target : Nat) (term : Term) : Store :=
  { store with terms := store.terms.set target term }

def addTerm (store : Store) (term : Term) : Store :=
  { store with terms := store.terms ++ [term] }

/-- A call that changes the store only if it succeeds. -/
def settle (store : Store) (result : Except AlgebraError α) (keep : α → Store) :
    Except AlgebraError Unit × Store :=
  match result with
  | .ok value => (.ok (), keep value)
  | .error error => (.error error, store)

/-- The outcome of a call and the store that it leaves. Only what is in the store can be used. -/
def call? (store : Store) : Call → Option (Except AlgebraError Unit × Store)
  | .unknown => some (.ok (), store.addQuantity .unknown)
  | .constant value => some (.ok (), store.addQuantity (.constant value))
  | .ofDimension dimension => some (.ok (), store.addQuantity (.ofDimension dimension))
  | .copy source => do
    let quantity ← store.quantities[source]?
    some (.ok (), store.addQuantity quantity)
  | .copyBare source => do
    let quantity ← store.quantities[source]?
    some (.ok (), store.addQuantity quantity.bare)
  | .relabel target identifier? isVector isConstant hasValue value => do
    let quantity ← store.quantities[target]?
    let relabelled := { quantity with identifier?, isVector, isConstant, hasValue, value }
    some (.ok (), store.setQuantity target relabelled)
  | .extend target side supply => do
    let quantity ← store.quantities[target]?
    let dimensions ← supply.dimensions? store
    some (store.settle (quantity.extend dimensions side) (store.setQuantity target))
  | .add left op right => do
    let left ← store.quantities[left]?
    let right ← store.quantities[right]?
    some (store.settle (left.add op right) store.addQuantity)
  | .power base exponent => do
    let base ← store.quantities[base]?
    some (store.settle (base.power exponent) store.addQuantity)
  | .vectorProduct op left right angle? => do
    let left ← store.quantities[left]?
    let right ← store.quantities[right]?
    some (store.settle (Quantity.vectorProduct op left right angle?) store.addQuantity)
  | .begin negated first => do
    let first ← store.quantities[first]?
    some (store.settle (Term.ofFactor negated first) store.addTerm)
  -- What a failed factor did to its term stays done.
  | .apply target op factor => do
    let term ← store.terms[target]?
    let factor ← store.quantities[factor]?
    let (outcome, after) := term.apply op factor
    some (outcome, store.setTerm target after)
  | .finish source => do
    let term ← store.terms[source]?
    some (.ok (), store.addQuantity term.finish)

/-- Make one call after another, whether they succeed or fail. -/
def run? (store : Store) (calls : List Call) : Option Store :=
  calls.foldlM (fun store call => (store.call? call).map Prod.snd) store

/-- Dimensions that are not those of a quantity in the store come from the table. -/
def Supply.IsOver (table : Table) : Supply → Prop
  | .single dimension => dimension ∈ table.dimensions
  | .copied _ _ => True

def Call.IsOver (table : Table) : Call → Prop
  | .ofDimension dimension => dimension ∈ table.dimensions
  | .extend _ _ supply => supply.IsOver table
  | .vectorProduct _ _ _ angle? => ∀ angle ∈ angle?, angle ∈ table.dimensions
  | _ => True

/-- All quantities, those inside of terms too, are over a table. -/
structure IsOver (table : Table) (store : Store) : Prop where
  quantities : ∀ quantity ∈ store.quantities, quantity.IsOver table
  terms : ∀ term ∈ store.terms, term.quantity.IsOver table

end Store

variable {table : Table}

namespace Quantity

variable {quantity result : Quantity} {dimensions : List Dimension}

theorem extend_eq_map (side : Side) :
    quantity.extend dimensions side =
      ((quantity.side side).append dimensions).map fun monomial =>
        quantity.withSide monomial side := by
  cases side <;> rfl

theorem IsOver.side (isOver : quantity.IsOver table) (side : Side) :
    (quantity.side side).IsOver table := by
  cases side with
  | above => exact isOver.numerator
  | below => exact isOver.denominator

theorem IsOver.withSide (isOver : quantity.IsOver table) {monomial : Monomial}
    (ofMonomial : monomial.IsOver table) (side : Side) :
    (quantity.withSide monomial side).IsOver table := by
  cases side with
  | above => exact ⟨ofMonomial, isOver.denominator⟩
  | below => exact ⟨isOver.numerator, ofMonomial⟩

/-- One side is extended exactly when its whole product stays within the bound. -/
theorem extend_eq (numbered : table.Numbered) (isOver : quantity.IsOver table)
    (members : dimensions ⊆ table.dimensions) (side : Side) :
    quantity.extend dimensions side =
      let factors := (quantity.side side).factors ++ dimensions
      if primeProduct factors < Monomial.bound then .ok (quantity.withSide (.of factors) side)
      else .error .overflow := by
  rw [extend_eq_map, Monomial.append_eq numbered (isOver.side side) members]
  by_cases fits : primeProduct ((quantity.side side).factors ++ dimensions) < Monomial.bound
  · simp only [fits, if_true]
    rfl
  · simp only [fits, if_false]
    rfl

theorem IsOver.extend (numbered : table.Numbered) (isOver : quantity.IsOver table)
    (members : dimensions ⊆ table.dimensions) {side : Side}
    (h : quantity.extend dimensions side = .ok result) : result.IsOver table := by
  rw [extend_eq_map] at h
  obtain ⟨monomial, appended, rfl⟩ := Except.map_eq_ok.mp h
  exact isOver.withSide ((isOver.side side).append numbered members appended).1 side

theorem IsOver.bare : quantity.bare.IsOver table := ⟨Monomial.isOver_one, Monomial.isOver_one⟩

end Quantity

namespace Term

variable {term after : Term} {factor quantity result : Quantity} {dimensions : List Dimension}
  {op : MulOp}

theorem isOver_of_place (numbered : table.Numbered) (isOver : quantity.IsOver table)
    (members : dimensions ⊆ table.dimensions) (h : place quantity op dimensions = .ok result) :
    result.IsOver table := by
  cases op with
  | times => exact isOver.multiplyNumerator numbered members h
  | «over» => exact isOver.multiplyDenominator numbered members h

/-- A factor may be taken in by half, and what was taken in is kept. -/
theorem absorbDimensions_isOver (numbered : table.Numbered) (ofTerm : term.quantity.IsOver table)
    (ofFactor : factor.IsOver table) :
    (term.absorbDimensions op factor).2.quantity.IsOver table := by
  unfold absorbDimensions
  cases first : place term.quantity op factor.numerator.factors with
  | error error => exact ofTerm
  | ok above =>
    have half := isOver_of_place numbered ofTerm ofFactor.numerator.member first
    dsimp only
    cases second : place above op.inverse factor.denominator.factors with
    | error error => exact half
    | ok both => exact isOver_of_place numbered half ofFactor.denominator.member second

theorem absorb_isOver (numbered : table.Numbered) (ofTerm : term.quantity.IsOver table)
    (ofFactor : factor.IsOver table) : (term.absorb op factor).2.quantity.IsOver table := by
  unfold absorb
  by_cases vector : factor.isVector = true
  · rw [if_pos vector]
    by_cases second : 0 < term.vectors
    · rw [if_pos second]
      exact ofTerm
    · rw [if_neg second]
      exact absorbDimensions_isOver numbered ⟨ofTerm.numerator, ofTerm.denominator⟩ ofFactor
  · rw [if_neg vector]
    exact absorbDimensions_isOver numbered ofTerm ofFactor

/-- A term stays over its table, whether a factor was taken in or not. -/
theorem apply_isOver (numbered : table.Numbered) (ofTerm : term.quantity.IsOver table)
    (ofFactor : factor.IsOver table) : (term.apply op factor).2.quantity.IsOver table := by
  have scaled : (term.scaled op factor).quantity = term.quantity := by
    unfold Term.scaled
    split <;> rfl
  rw [apply_eq]
  exact absorb_isOver numbered (scaled ▸ ofTerm) ofFactor

theorem isOver_of_ofFactor (numbered : table.Numbered) {negated : Bool}
    (ofFactor : factor.IsOver table) (h : Term.ofFactor negated factor = .ok term) :
    term.quantity.IsOver table := by
  obtain ⟨_, _, has⟩ := (ofFactor_meets numbered negated ofFactor.has).of_ok h
  exact has.isOver

theorem finish_isOver (ofTerm : term.quantity.IsOver table) : term.finish.IsOver table :=
  ⟨ofTerm.numerator, ofTerm.denominator⟩

end Term

namespace Store

variable {store : Store} {quantity : Quantity} {term : Term} {place : Nat}

theorem isOver_empty : empty.IsOver table := ⟨nofun, nofun⟩

namespace IsOver

theorem ofQuantity (isOver : store.IsOver table) (found : store.quantities[place]? = some quantity) :
    quantity.IsOver table :=
  isOver.quantities quantity (List.mem_of_getElem? found)

theorem ofTerm (isOver : store.IsOver table) (found : store.terms[place]? = some term) :
    term.quantity.IsOver table :=
  isOver.terms term (List.mem_of_getElem? found)

theorem setQuantity (isOver : store.IsOver table) (ofQuantity : quantity.IsOver table) :
    (store.setQuantity place quantity).IsOver table := by
  refine ⟨fun other member => ?_, isOver.terms⟩
  rcases List.mem_or_eq_of_mem_set member with before | rfl
  · exact isOver.quantities other before
  · exact ofQuantity

theorem addQuantity (isOver : store.IsOver table) (ofQuantity : quantity.IsOver table) :
    (store.addQuantity quantity).IsOver table :=
  ⟨List.forall_mem_append.mpr ⟨isOver.quantities, List.forall_mem_singleton.mpr ofQuantity⟩,
    isOver.terms⟩

theorem setTerm (isOver : store.IsOver table) (ofTerm : term.quantity.IsOver table) :
    (store.setTerm place term).IsOver table := by
  refine ⟨isOver.quantities, fun other member => ?_⟩
  rcases List.mem_or_eq_of_mem_set member with before | rfl
  · exact isOver.terms other before
  · exact ofTerm

theorem addTerm (isOver : store.IsOver table) (ofTerm : term.quantity.IsOver table) :
    (store.addTerm term).IsOver table :=
  ⟨isOver.quantities,
    List.forall_mem_append.mpr ⟨isOver.terms, List.forall_mem_singleton.mpr ofTerm⟩⟩

theorem settle (isOver : store.IsOver table) {result : Except AlgebraError α} {keep : α → Store}
    (kept : ∀ value, result = .ok value → (keep value).IsOver table) :
    (store.settle result keep).2.IsOver table := by
  cases result with
  | error error => exact isOver
  | ok value => exact kept value rfl

theorem supply {supply : Supply} {dimensions : List Dimension} (isOver : store.IsOver table)
    (ofSupply : supply.IsOver table) (h : supply.dimensions? store = some dimensions) :
    dimensions ⊆ table.dimensions := by
  cases supply with
  | single dimension =>
    cases h
    exact List.cons_subset.mpr ⟨ofSupply, List.nil_subset _⟩
  | copied source side =>
    obtain ⟨quantity, found, rfl⟩ := Option.map_eq_some_iff.mp h
    exact ((isOver.ofQuantity found).side side).member

/-- No call takes a quantity off its table, and none that fails does. -/
theorem call? (numbered : table.Numbered) {call : Call} (isOver : store.IsOver table)
    (ofCall : call.IsOver table) {result : Except AlgebraError Unit × Store}
    (h : store.call? call = some result) : result.2.IsOver table := by
  cases call with
  | unknown | constant =>
    cases h
    exact isOver.addQuantity ⟨Monomial.isOver_one, Monomial.isOver_one⟩
  | ofDimension dimension =>
    cases h
    exact isOver.addQuantity ⟨Monomial.isOver_singleton numbered ofCall, Monomial.isOver_one⟩
  | copy source =>
    obtain ⟨quantity, found, same⟩ := Option.bind_eq_some_iff.mp h
    cases same
    exact isOver.addQuantity (isOver.ofQuantity found)
  | copyBare source =>
    obtain ⟨quantity, _, same⟩ := Option.bind_eq_some_iff.mp h
    cases same
    exact isOver.addQuantity .bare
  | relabel target =>
    obtain ⟨quantity, found, same⟩ := Option.bind_eq_some_iff.mp h
    cases same
    have ofQuantity := isOver.ofQuantity found
    exact isOver.setQuantity ⟨ofQuantity.numerator, ofQuantity.denominator⟩
  | extend target side supply =>
    obtain ⟨quantity, found, rest⟩ := Option.bind_eq_some_iff.mp h
    obtain ⟨dimensions, supplied, same⟩ := Option.bind_eq_some_iff.mp rest
    cases same
    refine isOver.settle fun extended success => isOver.setQuantity ?_
    exact (isOver.ofQuantity found).extend numbered (isOver.supply ofCall supplied) success
  | add left op right =>
    obtain ⟨left, foundLeft, rest⟩ := Option.bind_eq_some_iff.mp h
    obtain ⟨right, foundRight, same⟩ := Option.bind_eq_some_iff.mp rest
    cases same
    refine isOver.settle fun sum success => isOver.addQuantity ?_
    exact Quantity.isOver_of_meets (Quantity.add_meets numbered op (isOver.ofQuantity foundLeft).has
      (isOver.ofQuantity foundRight).has) success
  | power base exponent =>
    obtain ⟨base, found, same⟩ := Option.bind_eq_some_iff.mp h
    cases same
    refine isOver.settle fun raised success => isOver.addQuantity ?_
    exact (isOver.ofQuantity found).power numbered success
  | vectorProduct op left right angle? =>
    obtain ⟨left, foundLeft, rest⟩ := Option.bind_eq_some_iff.mp h
    obtain ⟨right, foundRight, same⟩ := Option.bind_eq_some_iff.mp rest
    cases same
    refine isOver.settle fun product success => isOver.addQuantity ?_
    exact Quantity.isOver_of_meets (Quantity.vectorProduct_meets numbered op ofCall
      (isOver.ofQuantity foundLeft).has (isOver.ofQuantity foundRight).has) success
  | begin negated first =>
    obtain ⟨first, found, same⟩ := Option.bind_eq_some_iff.mp h
    cases same
    refine isOver.settle fun term success => isOver.addTerm ?_
    exact Term.isOver_of_ofFactor numbered (isOver.ofQuantity found) success
  | apply target op factor =>
    obtain ⟨term, found, rest⟩ := Option.bind_eq_some_iff.mp h
    obtain ⟨factor, foundFactor, same⟩ := Option.bind_eq_some_iff.mp rest
    cases same
    exact isOver.setTerm
      (Term.apply_isOver numbered (isOver.ofTerm found) (isOver.ofQuantity foundFactor))
  | finish source =>
    obtain ⟨term, found, same⟩ := Option.bind_eq_some_iff.mp h
    cases same
    exact isOver.addQuantity (Term.finish_isOver (isOver.ofTerm found))

theorem run? (numbered : table.Numbered) {calls : List Call} (isOver : store.IsOver table)
    (overs : ∀ call ∈ calls, call.IsOver table) {after : Store}
    (h : store.run? calls = some after) : after.IsOver table := by
  induction calls generalizing store with
  | nil =>
    cases h
    exact isOver
  | cons call calls ih =>
    obtain ⟨ofCall, others⟩ := List.forall_mem_cons.mp overs
    rw [Store.run?, List.foldlM_cons] at h
    obtain ⟨next, called, rest⟩ := Option.bind_eq_some_iff.mp h
    obtain ⟨result, made, rfl⟩ := Option.map_eq_some_iff.mp called
    exact ih (isOver.call? numbered ofCall made) others rest

end IsOver

/-- A quantity is extended, nothing else of it changes, or nothing at all does. -/
theorem call?_extend (numbered : table.Numbered) (isOver : store.IsOver table) {target : Nat}
    {supply : Supply} {dimensions : List Dimension} (ofSupply : supply.IsOver table)
    (found : store.quantities[target]? = some quantity)
    (supplied : supply.dimensions? store = some dimensions) (side : Side) :
    store.call? (.extend target side supply) = some
      (let factors := (quantity.side side).factors ++ dimensions
      if primeProduct factors < Monomial.bound then
        (.ok (), store.setQuantity target (quantity.withSide (.of factors) side))
      else (.error .overflow, store)) := by
  have members := isOver.supply ofSupply supplied
  simp only [Store.call?, found, supplied, Option.bind_eq_bind, Option.bind_some,
    Quantity.extend_eq numbered (isOver.ofQuantity found) members]
  by_cases fits : primeProduct ((quantity.side side).factors ++ dimensions) < Monomial.bound
  · simp only [fits, if_true]
    rfl
  · simp only [fits, if_false]
    rfl

/-- Whatever calls were made and however many of them failed, each quantity, inside of a term or
not, has the products of its dimensions within their bound. A quantity can be multiplied by further
dimensions exactly if the product of all of them stays within the bound. Nothing else of the
quantity changes then, and otherwise nothing at all does. -/
theorem run?_exact (reached : table.Reached) {calls : List Call}
    (overs : ∀ call ∈ calls, call.IsOver table) (h : empty.run? calls = some store) :
    store.IsOver table ∧
    ∀ target quantity supply dimensions, supply.IsOver table →
      store.quantities[target]? = some quantity → supply.dimensions? store = some dimensions →
      ∀ side, store.call? (.extend target side supply) = some
        (let factors := (quantity.side side).factors ++ dimensions
        if primeProduct factors < Monomial.bound then
          (.ok (), store.setQuantity target (quantity.withSide (.of factors) side))
        else (.error .overflow, store)) := by
  have isOver := isOver_empty.run? reached.numbered overs h
  refine ⟨isOver, fun target quantity supply dimensions ofSupply found supplied side => ?_⟩
  exact call?_extend reached.numbered isOver ofSupply found supplied side

/-- A term that took in a metre above the line, but could not take in the angle below it. -/
theorem exists_term_left_half_way :
    let meter : Dimension := ⟨"meter", some "m", 2⟩
    let radian : Dimension := ⟨"radian", some "rad", 19⟩
    let divide (target : Nat) : Call := .extend target .below (.single radian)
    let calls : List Call := .unknown :: List.replicate 30 (divide 0) ++
      [.ofDimension meter, divide 1, .begin false 0, .apply 0 .times 1]
    ∃ store term, empty.run? calls = some store ∧ store.terms = [term] ∧
      term.quantity.IsOver .si ∧ term.quantity.numerator.factors = [meter] ∧
      term.quantity.denominator.factors = List.replicate 30 radian ∧
      store.call? (divide 0) = some (.error .overflow, store) := by
  intro meter radian divide calls
  have isMeter : meter ∈ Table.si.dimensions := by simp [Table.si, meter]
  have isRadian : radian ∈ Table.si.dimensions := by simp [Table.si, radian]
  have divides (target : Nat) : (divide target).IsOver .si := isRadian
  have overs : ∀ call ∈ calls, call.IsOver .si := by
    intro call member
    simp only [calls, List.cons_append, List.mem_cons, List.mem_append, List.not_mem_nil,
      or_false] at member
    rcases member with rfl | repeated | rfl | rfl | rfl | rfl
    · trivial
    · obtain rfl := List.eq_of_mem_replicate repeated
      exact divides 0
    · exact isMeter
    · exact divides 1
    · trivial
    · trivial
  have outcome : (empty.run? calls).map (fun store =>
      (store.terms.map fun term =>
        (term.quantity.numerator.factors, term.quantity.denominator.factors),
        store.quantities[0]?.map fun quantity => quantity.denominator.factors)) =
      some ([([meter], List.replicate 30 radian)], some (List.replicate 30 radian)) := by
    decide +kernel
  obtain ⟨store, h, both⟩ := Option.map_eq_some_iff.mp outcome
  obtain ⟨ofTerms, ofFirst⟩ := Prod.mk.inj both
  obtain ⟨term, terms, sides⟩ := List.map_eq_singleton_iff.mp ofTerms
  obtain ⟨above, below⟩ := Prod.mk.inj sides
  obtain ⟨first, found, full⟩ := Option.map_eq_some_iff.mp ofFirst
  obtain ⟨isOver, extending⟩ := run?_exact .si overs h
  refine ⟨store, term, h, terms, isOver.terms term (by simp [terms]), above, below, ?_⟩
  have large : ¬ primeProduct ((first.side .below).factors ++ [radian]) < Monomial.bound := by
    rw [Quantity.side, full]
    decide +kernel
  rw [extending 0 first (.single radian) [radian] isRadian found rfl .below, if_neg large]

end Store

end Dimensional
