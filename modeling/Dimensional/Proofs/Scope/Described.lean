import Dimensional.Proofs.Dimension.Declarations
import Dimensional.Proofs.Parser.Mentioned
import Dimensional.Proofs.Prime.Count
import Dimensional.Proofs.Scope.Renumbering

/-! What a description of a scope describes: the table that its dimensions are declared in, and for
each name its last declaration, quantities before constants. -/

namespace Dimensional

/-- The name and the symbol of a dimension. -/
def Dimension.keys (dimension : Dimension) : List String :=
  dimension.name :: dimension.symbol?.toList

theorem Dimension.mem_keys {dimension : Dimension} {key : String} :
    key ∈ dimension.keys ↔ key = dimension.name ∨ dimension.symbol? = some key := by
  rw [keys, List.mem_cons, Option.mem_toList]

namespace Table

/-- The dimensions that answer to some keys, in the order of the keys. -/
def listed (table : Table) (keys : List String) : List Dimension := keys.filterMap table.get?

/-- The product of the dimensions under some keys. -/
def monomial (table : Table) (keys : List String) : Monomial :=
  ⟨table.listed keys, primeProduct (table.listed keys)⟩

theorem listed_subset {table : Table} {keys : List String} :
    table.listed keys ⊆ table.dimensions := by
  intro dimension member
  obtain ⟨key, _, found⟩ := List.mem_filterMap.mp member
  exact List.mem_of_find?_eq_some found

section Keys

variable {table : Table} {name : String} {symbol? : Option String} {dimension : Dimension}

theorem isSome_get?_iff {key : String} :
    (table.get? key).isSome ↔ ∃ dimension ∈ table.dimensions, key ∈ dimension.keys := by
  simp only [get?_isSome_iff, answersTo_iff, Dimension.mem_keys]

/-- Where the keys are distinct, a key is answered to by the dimension that has it. -/
theorem Orderly.get?_eq_some_iff (orderly : table.Orderly) {key : String} :
    table.get? key = some dimension ↔ dimension ∈ table.dimensions ∧ key ∈ dimension.keys := by
  rw [Dimension.mem_keys, ← answersTo_iff]
  constructor
  · exact fun found => ⟨List.mem_of_find?_eq_some found, answersTo_of_get? found⟩
  · exact fun ⟨member, answers⟩ => orderly.distinct.get?_eq member answers

/-- A declaration is free if none of its keys is taken. -/
theorem not_clashes_iff : ¬ table.Clashes name symbol? ↔
    ∀ other ∈ table.dimensions, other.keys.Disjoint (Dimension.keys ⟨name, symbol?, 0⟩) := by
  constructor
  · intro free other member key ofOther own
    exact free ⟨other, member, key, Dimension.mem_keys.mp own, Dimension.mem_keys.mp ofOther⟩
  · rintro disjoint ⟨other, member, key, own, ofOther⟩
    exact disjoint other member (Dimension.mem_keys.mpr ofOther) (Dimension.mem_keys.mpr own)

/-- What does not clash is declared, as long as there are primes for all dimensions. -/
theorem insert_isOk_of_few (inOrder : table.InOrder) (few : table.dimensions.length < 3 * 2 ^ 56)
    (free : ¬ table.Clashes name symbol?) :
    ∃ dimension extended, table.insert name symbol? = .ok (dimension, extended) := by
  have infinite := Nat.infinite_setOfPred_prime
  have isPrime := Nat.nth_mem_of_infinite infinite table.dimensions.length
  have above : table.lastPrime < Nat.nth Nat.Prime table.dimensions.length :=
    (inOrder.lastPrime_lt_iff isPrime).mpr fun k inside => Nat.nth_strictMono infinite inside
  obtain ⟨prime, next⟩ := Option.isSome_iff_exists.mp
    (Prime.nextPrime?_isSome_of_prime isPrime (Prime.nth_lt_greatestSquare few) above)
  exact insert_isOk_of_nextPrime? next free

/-- What is declared comes behind, with its keys. -/
theorem keys_of_insert {extended : Table}
    (inserted : table.insert name symbol? = .ok (dimension, extended)) :
    extended.dimensions.map Dimension.keys =
      table.dimensions.map Dimension.keys ++ [Dimension.keys ⟨name, symbol?, 0⟩] := by
  obtain ⟨_, named, symbolized, _, added⟩ := insert_eq_ok inserted
  rw [added, List.map_append, List.map_singleton, Dimension.keys, named, symbolized]
  rfl

theorem Orderly.disjoint_keys (orderly : table.Orderly) :
    (table.dimensions.map Dimension.keys).Pairwise List.Disjoint := by
  have nodup : table.dimensions.Nodup :=
    List.Nodup.of_map Dimension.prime (orderly.numbered.ascending.imp Nat.ne_of_lt)
  rw [List.pairwise_map]
  refine nodup.pairwise_of_forall_ne ?_
  intro first member second other differs key ofFirst ofSecond
  exact differs (orderly.distinct first member second other key
    (answersTo_iff.mpr (Dimension.mem_keys.mp ofFirst))
    (answersTo_iff.mpr (Dimension.mem_keys.mp ofSecond)))

end Keys

end Table

namespace Scope

section Declarations

variable {scope extended : Scope} {name : String} {declarations : List DimensionDeclaration}

theorem declareDimensions_cons_eq_ok {declaration : DimensionDeclaration} :
    scope.declareDimensions (declaration :: declarations) = .ok extended ↔
      ∃ dimension table, scope.table.insert declaration.name declaration.symbol? =
          .ok (dimension, table) ∧
        ({ scope with table } : Scope).declareDimensions declarations = .ok extended := by
  rw [declareDimensions, List.foldlM_cons, Except.bind_eq_ok, insertDimension]
  cases inserted : scope.table.insert declaration.name declaration.symbol? with
  | error reason => exact iff_of_false nofun nofun
  | ok both =>
    constructor
    · rintro ⟨_, ⟨⟩, later⟩
      exact ⟨both.1, both.2, rfl, later⟩
    · rintro ⟨_, _, ⟨⟩, later⟩
      exact ⟨_, rfl, later⟩

/-- Dimensions are declared exactly if no two of them, or of those before, share a key. -/
theorem declareDimensions_isOk_iff (orderly : scope.table.Orderly)
    (few : scope.table.dimensions.length + declarations.length ≤ 3 * 2 ^ 56) :
    (∃ extended, scope.declareDimensions declarations = .ok extended) ↔
      ((scope.table.dimensions ++ declarations.map DimensionDeclaration.erased).map
        Dimension.keys).Pairwise List.Disjoint := by
  induction declarations generalizing scope with
  | nil =>
    rw [List.map_nil, List.append_nil]
    exact iff_of_true ⟨scope, rfl⟩ orderly.disjoint_keys
  | cons declaration declarations ih =>
    rw [List.length_cons] at few
    simp only [declareDimensions_cons_eq_ok]
    have same {dimension : Dimension} {table : Table}
        (inserted : scope.table.insert declaration.name declaration.symbol? =
          .ok (dimension, table)) :
        (table.dimensions ++ declarations.map DimensionDeclaration.erased).map Dimension.keys =
          (scope.table.dimensions ++ (declaration :: declarations).map
            DimensionDeclaration.erased).map Dimension.keys := by
      rw [List.map_append, Table.keys_of_insert inserted, List.append_assoc, List.map_append]
      rfl
    have longer {dimension : Dimension} {table : Table}
        (inserted : scope.table.insert declaration.name declaration.symbol? =
          .ok (dimension, table)) :
        table.dimensions.length + declarations.length ≤ 3 * 2 ^ 56 := by
      have lengths := congrArg List.length (Table.keys_of_insert inserted)
      rw [List.length_append, List.length_singleton, List.length_map, List.length_map] at lengths
      omega
    constructor
    · rintro ⟨extended, dimension, table, inserted, later⟩
      rw [← same inserted]
      exact (ih (orderly.insert inserted) (longer inserted)).mp ⟨extended, later⟩
    · intro disjoint
      have free : ¬ scope.table.Clashes declaration.name declaration.symbol? := by
        refine Table.not_clashes_iff.mpr fun other member => ?_
        rw [List.map_append, List.pairwise_append] at disjoint
        exact disjoint.2.2 _ (List.mem_map_of_mem member) _ List.mem_cons_self
      obtain ⟨dimension, table, inserted⟩ :=
        Table.insert_isOk_of_few orderly.inOrder (by omega) free
      rw [← same inserted] at disjoint
      have rest : ∃ extended, ({ scope with table } : Scope).declareDimensions declarations =
          .ok extended := (ih (orderly.insert inserted) (longer inserted)).mpr disjoint
      obtain ⟨extended, later⟩ := rest
      exact ⟨extended, dimension, table, inserted, later⟩

/-- Declarations that succeed lead to the table of all declarations. -/
theorem declareDimensions_eq (h : scope.declareDimensions declarations = .ok extended) :
    extended.table = scope.table.declareAll (declarations.map fun declaration =>
      (declaration.name, declaration.symbol?)) := by
  induction declarations generalizing scope with
  | nil =>
    cases h
    rfl
  | cons declaration declarations ih =>
    obtain ⟨dimension, table, inserted, later⟩ := declareDimensions_cons_eq_ok.mp h
    rw [ih later, List.map_cons]
    change _ = (scope.table.declare _ _).declareAll _
    rw [Table.declare, inserted]

end Declarations

section Quantities

variable {scope extended : Scope} {name key : String} {keys numerator denominator : List String}
  {start result : Monomial} {bound : Quantity}

/-- Keys are multiplied by exactly if all of them have answers and these can be multiplied by at
once. -/
theorem multiplyKeys_eq_ok_iff (numbered : scope.table.Numbered)
    (isOver : start.IsOver scope.table) :
    keys.foldlM (scope.multiplyKey name) start = .ok result ↔
      (∀ key ∈ keys, (scope.table.get? key).isSome) ∧
        start.append (scope.table.listed keys) = .ok result := by
  induction keys generalizing start with
  | nil =>
    have unchanged : start.append [] = .ok start := by
      rw [Monomial.append, List.append_nil]
      rfl
    rw [Table.listed, List.filterMap_nil, unchanged]
    constructor
    · rintro ⟨⟩
      exact ⟨nofun, rfl⟩
    · rintro ⟨_, ⟨⟩⟩
      rfl
  | cons key keys ih =>
    have once {dimension : Dimension} (found : scope.table.get? key = some dimension) :
        (start.append [dimension] >>= fun longer => longer.append (scope.table.listed keys)) =
          start.append (scope.table.listed (key :: keys)) := by
      rw [Table.listed, Table.listed, List.filterMap_cons_some found]
      exact Monomial.append_append numbered isOver (singleton_subset found) Table.listed_subset
    rw [List.foldlM_cons, Except.bind_eq_ok]
    simp only [multiplyKey_eq_ok_iff]
    constructor
    · rintro ⟨longer, ⟨dimension, found, multiplied⟩, later⟩
      have longerOver := (isOver.append numbered (singleton_subset found) multiplied).1
      obtain ⟨answered, others⟩ := (ih longerOver).mp later
      rw [← once found, List.forall_mem_cons, found]
      exact ⟨⟨rfl, answered⟩, Except.bind_eq_ok.mpr ⟨longer, multiplied, others⟩⟩
    · rintro ⟨answered, all⟩
      obtain ⟨answers, others⟩ := List.forall_mem_cons.mp answered
      obtain ⟨dimension, found⟩ := Option.isSome_iff_exists.mp answers
      rw [← once found] at all
      obtain ⟨longer, multiplied, later⟩ := Except.bind_eq_ok.mp all
      have longerOver := (isOver.append numbered (singleton_subset found) multiplied).1
      exact ⟨longer, ⟨dimension, found, multiplied⟩, (ih longerOver).mpr ⟨others, later⟩⟩

theorem monomial_eq_ok_iff (numbered : scope.table.Numbered) :
    scope.monomial name keys = .ok result ↔
      (∀ key ∈ keys, (scope.table.get? key).isSome) ∧
      primeProduct (scope.table.listed keys) < Monomial.bound ∧
      result = scope.table.monomial keys := by
  rw [monomial, multiplyKeys_eq_ok_iff numbered Monomial.isOver_one,
    Monomial.append_eq numbered Monomial.isOver_one Table.listed_subset]
  refine and_congr_right' ?_
  change (if primeProduct (scope.table.listed keys) < Monomial.bound then
    Except.ok (scope.table.monomial keys) else _) = _ ↔ _
  split
  case isTrue fits => simp [fits, eq_comm]
  case isFalse exceeds => exact iff_of_false nofun fun both => exceeds both.1

/-- The dimensions of a quantity are known, and their primes multiply within the bound. -/
structure Lists (table : Table) (numerator denominator : List String) : Prop where
  answered : ∀ key ∈ numerator ++ denominator, ∃ dimension ∈ table.dimensions, key ∈ dimension.keys
  above : primeProduct (table.listed numerator) < 2 ^ 128
  below : primeProduct (table.listed denominator) < 2 ^ 128

theorem quantity_eq_ok_iff (numbered : scope.table.Numbered) :
    scope.quantity name numerator denominator = .ok bound ↔
      Lists scope.table numerator denominator ∧
      bound = { Quantity.unknown with
        numerator := scope.table.monomial numerator
        denominator := scope.table.monomial denominator } := by
  rw [quantity_eq_ok]
  simp only [monomial_eq_ok_iff numbered, Table.isSome_get?_iff]
  constructor
  · rintro ⟨_, ⟨above, fits, rfl⟩, _, ⟨below, fits', rfl⟩, rfl⟩
    exact ⟨⟨List.forall_mem_append.mpr ⟨above, below⟩, fits, fits'⟩, rfl⟩
  · rintro ⟨⟨answered, fits, fits'⟩, rfl⟩
    obtain ⟨above, below⟩ := List.forall_mem_append.mp answered
    exact ⟨_, ⟨above, fits, rfl⟩, _, ⟨below, fits', rfl⟩, rfl⟩

theorem quantity_isOk_iff (numbered : scope.table.Numbered) :
    (∃ bound, scope.quantity name numerator denominator = .ok bound) ↔
      Lists scope.table numerator denominator := by
  simp only [quantity_eq_ok_iff numbered]
  constructor
  · rintro ⟨_, lists, _⟩
    exact lists
  · exact fun lists => ⟨_, lists, rfl⟩

/-- The quantity that a declaration stands for, over a table. -/
def QuantityDeclaration.model (declaration : QuantityDeclaration) (table : Table) : Quantity where
  identifier? := some declaration.name
  numerator := table.monomial declaration.numerator
  denominator := table.monomial declaration.denominator
  isVector := declaration.isVector
  isConstant := declaration.value?.isSome
  hasValue := declaration.value?.isSome
  value := declaration.value?.getD 0.0

theorem declared_isOk_iff (numbered : scope.table.Numbered) {declaration : QuantityDeclaration} :
    (∃ bound, scope.declared declaration = .ok bound) ↔
      Lists scope.table declaration.numerator declaration.denominator := by
  have described : (∃ bound, scope.quantity declaration.name declaration.numerator
      declaration.denominator = .ok bound) ↔
        Lists scope.table declaration.numerator declaration.denominator :=
    quantity_isOk_iff numbered
  rw [← described]
  simp only [declared, Except.map_eq_ok]
  constructor
  · rintro ⟨_, bound, found, _⟩
    exact ⟨bound, found⟩
  · rintro ⟨bound, found⟩
    exact ⟨_, bound, found, rfl⟩

theorem named_of_declared (numbered : scope.table.Numbered) {declaration : QuantityDeclaration}
    (h : scope.declared declaration = .ok bound) :
    bound.named declaration.name = declaration.model scope.table := by
  obtain ⟨described, found, rfl⟩ := Except.map_eq_ok.mp h
  obtain ⟨_, rfl⟩ := (quantity_eq_ok_iff numbered).mp found
  dsimp only
  rw [QuantityDeclaration.model]
  cases declaration.value? <;> rfl

end Quantities

section Bindings

variable {scope extended : Scope} {name key : String} {bound : Quantity}
  {declarations : List QuantityDeclaration}

theorem get?_bind_self : (scope.bind name bound).get? name = some (bound.named name) :=
  List.lookup_cons_self

theorem get?_bind_ne (differs : key ≠ name) : (scope.bind name bound).get? key = scope.get? key :=
  (agreeOn_bind differs).1

/-- Bind some names one after another. -/
def bindAll (scope : Scope) (entries : List (String × Quantity)) : Scope :=
  entries.foldl (fun scope entry => scope.bind entry.1 entry.2) scope

theorem table_bindAll {entries : List (String × Quantity)} :
    (scope.bindAll entries).table = scope.table := by
  induction entries generalizing scope with
  | nil => rfl
  | cons entry entries ih => exact ih

/-- A name means what it was bound to last. -/
theorem get?_bindAll {entries : List (String × Quantity)} : (scope.bindAll entries).get? name =
    ((entries.reverse.find? fun entry => entry.1 == name).map fun entry =>
      entry.2.named entry.1).or (scope.get? name) := by
  induction entries generalizing scope with
  | nil => rfl
  | cons entry entries ih =>
    change ((scope.bind entry.1 entry.2).bindAll entries).get? name = _
    rw [ih, List.reverse_cons, List.find?_append, Option.map_or, Option.or_assoc]
    by_cases same : entry.1 = name
    · rw [List.find?_cons_of_pos (by simpa), ← same, get?_bind_self]
      rfl
    · rw [List.find?_cons_of_neg (by simpa), get?_bind_ne (Ne.symm same)]
      rfl

theorem declareConstants_eq {declarations : List ConstantDeclaration} :
    scope.declareConstants declarations = scope.bindAll
      (declarations.map fun declaration => (declaration.name, .constant declaration.value)) := by
  rw [declareConstants, bindAll, List.foldl_map]
  rfl

theorem declareQuantities_cons_eq_ok {declaration : QuantityDeclaration} :
    scope.declareQuantities (declaration :: declarations) = .ok extended ↔
      ∃ bound, scope.declared declaration = .ok bound ∧
        (scope.bind declaration.name bound).declareQuantities declarations = .ok extended := by
  rw [declareQuantities, List.foldlM_cons, Except.bind_eq_ok]
  constructor
  · rintro ⟨_, step, later⟩
    obtain ⟨bound, declared, rfl⟩ := Except.map_eq_ok.mp step
    exact ⟨bound, declared, later⟩
  · rintro ⟨bound, declared, later⟩
    exact ⟨_, Except.map_eq_ok.mpr ⟨bound, declared, rfl⟩, later⟩

/-- Quantities are declared exactly if each of them can be, over the same table. -/
theorem declareQuantities_isOk_iff :
    (∃ extended, scope.declareQuantities declarations = .ok extended) ↔
      ∀ declaration ∈ declarations, ∃ bound, scope.declared declaration = .ok bound := by
  induction declarations generalizing scope with
  | nil => exact iff_of_true ⟨scope, rfl⟩ nofun
  | cons declaration declarations ih =>
    simp only [declareQuantities_cons_eq_ok, List.forall_mem_cons]
    have next (bound : Quantity) : (∃ extended,
        (scope.bind declaration.name bound).declareQuantities declarations = .ok extended) ↔
          ∀ other ∈ declarations, ∃ bound, scope.declared other = .ok bound := ih
    constructor
    · rintro ⟨extended, bound, declared, later⟩
      exact ⟨⟨bound, declared⟩, (next bound).mp ⟨extended, later⟩⟩
    · rintro ⟨⟨bound, declared⟩, others⟩
      obtain ⟨extended, later⟩ := (next bound).mpr others
      exact ⟨extended, bound, declared, later⟩

theorem bind_congr {other : Quantity} (same : bound.named name = other.named name) :
    scope.bind name bound = scope.bind name other := by
  rw [bind, bind, same]

theorem declareQuantities_eq (numbered : scope.table.Numbered)
    (h : scope.declareQuantities declarations = .ok extended) :
    extended = scope.bindAll (declarations.map fun declaration =>
      (declaration.name, declaration.model scope.table)) := by
  induction declarations generalizing scope with
  | nil =>
    cases h
    rfl
  | cons declaration declarations ih =>
    obtain ⟨bound, declared, later⟩ := declareQuantities_cons_eq_ok.mp h
    have model : bound.named declaration.name =
        (declaration.model scope.table).named declaration.name :=
      named_of_declared numbered declared
    rw [bind_congr model] at later
    exact ih numbered later

end Bindings

namespace Description

variable {description : Description} {scope : Scope}

/-- The scope that declarations are added to. -/
def base (description : Description) : Scope := if description.includeSi then si else empty

/-- The dimensions that are described, those of the base first, but for their primes. -/
def dimensionList (description : Description) : List Dimension :=
  description.base.table.dimensions.map Dimension.erased ++
    description.dimensions.map DimensionDeclaration.erased

/-- The table that the dimensions are declared in. -/
def table (description : Description) : Table :=
  description.base.table.declareAll
    (description.dimensions.map fun declaration => (declaration.name, declaration.symbol?))

/-- No key is declared twice, and every quantity has dimensions whose primes multiply within the
bound. -/
structure IsConsistent (description : Description) : Prop where
  distinct : (description.dimensionList.map Dimension.keys).Pairwise List.Disjoint
  lists : ∀ declaration ∈ description.quantities,
    Lists description.table declaration.numerator declaration.denominator

/-- What a name means: the last quantity of that name, else the last constant, else a name of the
base. -/
def meaning? (description : Description) (name : String) : Option Quantity :=
  ((description.quantities.reverse.find? fun declaration => declaration.name == name).map
    fun declaration => declaration.model description.table).or
  (((description.constants.reverse.find? fun declaration => declaration.name == name).map
    fun declaration => (Quantity.constant declaration.value).named declaration.name).or
  (if description.includeSi ∧ name = "Pi" then
    some ((Quantity.constant 3.141592653589793).named "Pi") else none))

theorem orderly_base : description.base.table.Orderly := by
  unfold base
  split
  · exact Table.orderly_si
  · exact Table.orderly_empty

theorem get?_base {name : String} : description.base.get? name =
    if description.includeSi ∧ name = "Pi" then
      some ((Quantity.constant 3.141592653589793).named "Pi") else none := by
  unfold base
  cases description.includeSi with
  | false => rfl
  | true =>
    by_cases same : name = "Pi"
    · rw [if_pos rfl, if_pos ⟨rfl, same⟩, same]
      exact get?_bind_self
    · rw [if_pos rfl, if_neg fun both => same both.2]
      exact get?_bind_ne same

theorem orderly_table : description.table.Orderly :=
  Table.declareAll_preserves orderly_base Table.Orderly.insert

theorem keys_dimensionList : description.dimensionList.map Dimension.keys =
    (description.base.table.dimensions ++
      description.dimensions.map DimensionDeclaration.erased).map Dimension.keys := by
  rw [dimensionList, List.map_append, List.map_append, List.map_map]
  rfl

/-- The memory that declarations take up leaves primes for all of them. -/
theorem few_of_stored (stored : 48 * description.dimensions.length < 2 ^ 63) :
    description.base.table.dimensions.length + description.dimensions.length ≤ 3 * 2 ^ 56 := by
  have few : description.base.table.dimensions.length ≤ 8 := by
    unfold base
    cases description.includeSi <;> decide
  omega

theorem ofDescription_eq_ok_iff : ofDescription description = .ok scope ↔
    ∃ measured, description.base.declareDimensions description.dimensions = .ok measured ∧
      (measured.declareConstants description.constants).declareQuantities description.quantities =
        .ok scope :=
  Except.bind_eq_ok

/-- Constants are declared beside the table. -/
theorem table_of_measured {measured : Scope}
    (h : description.base.declareDimensions description.dimensions = .ok measured) :
    (measured.declareConstants description.constants).table = description.table := by
  rw [declareConstants_eq, table_bindAll, declareDimensions_eq h]
  rfl

theorem ofDescription_isOk_iff (stored : 48 * description.dimensions.length < 2 ^ 63) :
    (∃ scope, ofDescription description = .ok scope) ↔ description.IsConsistent := by
  have measures := declareDimensions_isOk_iff orderly_base (few_of_stored stored)
  rw [← keys_dimensionList] at measures
  simp only [ofDescription_eq_ok_iff]
  constructor
  · rintro ⟨scope, measured, declared, bound⟩
    refine ⟨measures.mp ⟨measured, declared⟩, fun declaration member => ?_⟩
    have each := declareQuantities_isOk_iff.mp ⟨scope, bound⟩ declaration member
    have same := table_of_measured declared
    rwa [declared_isOk_iff (same ▸ orderly_table.numbered), same] at each
  · rintro ⟨distinct, lists⟩
    obtain ⟨measured, declared⟩ := measures.mpr distinct
    have same := table_of_measured declared
    have each : ∀ declaration ∈ description.quantities, ∃ bound,
        (measured.declareConstants description.constants).declared declaration = .ok bound := by
      intro declaration member
      rw [declared_isOk_iff (same ▸ orderly_table.numbered), same]
      exact lists declaration member
    obtain ⟨scope, bound⟩ := declareQuantities_isOk_iff.mpr each
    exact ⟨scope, measured, declared, bound⟩

theorem table_of_ofDescription (h : ofDescription description = .ok scope) :
    scope.table = description.table := by
  obtain ⟨measured, declared, bound⟩ := ofDescription_eq_ok_iff.mp h
  have same := table_of_measured declared
  rw [declareQuantities_eq (same ▸ orderly_table.numbered) bound, table_bindAll, same]

theorem erased_of_ofDescription (h : ofDescription description = .ok scope) :
    scope.table.dimensions.map Dimension.erased = description.dimensionList := by
  obtain ⟨measured, declared, _⟩ := ofDescription_eq_ok_iff.mp h
  have same := table_of_measured declared
  rw [declareConstants_eq, table_bindAll] at same
  rw [table_of_ofDescription h, ← same]
  exact (declareDimensions_eq_ok declared).2.2.1

theorem get?_of_ofDescription (h : ofDescription description = .ok scope) (name : String) :
    scope.get? name = description.meaning? name := by
  obtain ⟨measured, declared, bound⟩ := ofDescription_eq_ok_iff.mp h
  have same := table_of_measured declared
  have base : measured.get? name = description.base.get? name := by
    rw [Scope.get?, (declareDimensions_eq_ok declared).1]
    rfl
  rw [declareQuantities_eq (same ▸ orderly_table.numbered) bound, get?_bindAll, same,
    declareConstants_eq, get?_bindAll, base, get?_base, ← List.map_reverse, ← List.map_reverse,
    List.find?_map, List.find?_map, Option.map_map, Option.map_map]
  rfl

end Description

section Binding

variable {scope extended : Scope} {name : String} {numerator denominator : List String}
  {bound : Quantity}

/-- A quantity of the listed dimensions alone, bound to its name. -/
theorem named_of_quantity (numbered : scope.table.Numbered)
    (h : scope.quantity name numerator denominator = .ok bound) :
    bound.named name =
      QuantityDeclaration.model ⟨name, numerator, denominator, false, none⟩ scope.table := by
  obtain ⟨_, rfl⟩ := (quantity_eq_ok_iff numbered).mp h
  rfl

/-- What binding a quantity changes: what its own name means, and nothing if there is an error. The
scope as it was is then still the one at hand. -/
theorem bindQuantity_changes (scope : Scope) (name : String) (numerator denominator : List String) :
    let left := (scope.bindQuantity name numerator denominator).toOption.getD scope
    (∃ error, scope.quantity name numerator denominator = .error error ∧
      scope.bindQuantity name numerator denominator = .error error ∧ left = scope) ∨
    ∃ bound, scope.quantity name numerator denominator = .ok bound ∧
      scope.bindQuantity name numerator denominator = .ok left ∧
      left.get? name = some (bound.named name) ∧ left.table = scope.table ∧
      ∀ other, other ≠ name → left.get? other = scope.get? other := by
  rw [bindQuantity]
  cases scope.quantity name numerator denominator with
  | error reason => exact .inl ⟨reason, rfl, rfl, rfl⟩
  | ok bound =>
    exact .inr ⟨bound, rfl, rfl, get?_bind_self, rfl, fun _ differs => get?_bind_ne differs⟩

end Binding

/-- A description makes a scope exactly if no key is declared twice and each quantity has dimensions
whose primes multiply within the bound. Then every name means its last declaration, quantities
before constants. Binding a quantity changes what its own name means, or fails and leaves the scope as
it was; it succeeds exactly if the quantity has such dimensions. The first hypothesis holds of all
that can be stored: a declared dimension takes up 48 bytes, and no list more than `2 ^ 63 - 1`. -/
theorem ofDescription_exact (description : Description)
    (stored : 48 * description.dimensions.length < 2 ^ 63) :
    ((∃ scope, ofDescription description = .ok scope) ↔ description.IsConsistent) ∧
    (∀ scope, ofDescription description = .ok scope →
      scope.table = description.table ∧
      scope.table.dimensions.map Dimension.erased = description.dimensionList ∧
      (∀ i dimension, scope.table.dimensions[i]? = some dimension →
        dimension.prime = Nat.nth Nat.Prime i) ∧
      (∀ key dimension, scope.table.get? key = some dimension ↔
        dimension ∈ scope.table.dimensions ∧ key ∈ dimension.keys) ∧
      ∀ name, scope.get? name = description.meaning? name) ∧
    ∀ (scope : Scope) (name : String) (numerator denominator : List String),
      let left := (scope.bindQuantity name numerator denominator).toOption.getD scope
      ((∃ error, scope.quantity name numerator denominator = .error error ∧
          scope.bindQuantity name numerator denominator = .error error ∧ left = scope) ∨
        ∃ bound, scope.quantity name numerator denominator = .ok bound ∧
          scope.bindQuantity name numerator denominator = .ok left ∧
          left.get? name = some (bound.named name) ∧ left.table = scope.table ∧
          ∀ other, other ≠ name → left.get? other = scope.get? other) ∧
      (scope.table.Numbered →
        ((∃ bound, scope.quantity name numerator denominator = .ok bound) ↔
          Lists scope.table numerator denominator) ∧
        ∀ bound, scope.quantity name numerator denominator = .ok bound → bound.named name =
          QuantityDeclaration.model ⟨name, numerator, denominator, false, none⟩ scope.table) := by
  refine ⟨Description.ofDescription_isOk_iff stored, fun scope h => ?_,
    fun scope name numerator denominator => ⟨bindQuantity_changes scope name numerator denominator,
      fun numbered => ⟨quantity_isOk_iff numbered, fun _ => named_of_quantity numbered⟩⟩⟩
  have orderly : scope.table.Orderly :=
    Description.table_of_ofDescription h ▸ Description.orderly_table
  exact ⟨Description.table_of_ofDescription h, Description.erased_of_ofDescription h,
    orderly.inOrder, fun _ _ => orderly.get?_eq_some_iff, Description.get?_of_ofDescription h⟩

/-- A rate that is declared twice, and another value of `Pi`. Later the acceleration of falling is
bound, and the rate is not bound to a unit that nobody declared. -/
theorem exists_rate_declared_again : ∃ description scope,
    description = (⟨true, [⟨"bit", some "b"⟩], [⟨"Pi", 3.0⟩],
      [⟨"rate", ["b"], ["s"], false, none⟩, ⟨"rate", ["bit", "m"], [], true, some 2.0⟩]⟩ :
        Description) ∧
    48 * description.dimensions.length < 2 ^ 63 ∧ ofDescription description = .ok scope ∧
    description.IsConsistent ∧ scope.get? "Pi" = some ((Quantity.constant 3.0).named "Pi") ∧
    (scope.get? "rate").map (fun quantity => (quantity.numerator.factors.map Dimension.name,
      quantity.denominator.factors, quantity.isVector, quantity.hasValue)) =
        some (["bit", "meter"], [], true, true) ∧
    scope.get? "g" = none ∧
    (∃ extended, scope.bindQuantity "g" ["m"] ["s", "s"] = .ok extended ∧
      (extended.get? "g").map Quantity.dimensionText = some "m / s*s" ∧
      extended.get? "rate" = scope.get? "rate") ∧
    ∃ error, scope.bindQuantity "rate" ["m", "furlong"] [] = .error error := by
  let description : Description := ⟨true, [⟨"bit", some "b"⟩], [⟨"Pi", 3.0⟩],
    [⟨"rate", ["b"], ["s"], false, none⟩, ⟨"rate", ["bit", "m"], [], true, some 2.0⟩]⟩
  have stored : 48 * description.dimensions.length < 2 ^ 63 := by decide
  have accepted : (ofDescription description).toOption.isSome = true := by decide +kernel
  obtain ⟨scope, found⟩ := Option.isSome_iff_exists.mp accepted
  have h := Except.toOption_eq_some.mp found
  obtain ⟨isOk, described, binds⟩ := ofDescription_exact description stored
  obtain ⟨table, _, _, _, means⟩ := described scope h
  have numbered : scope.table.Numbered := table ▸ description.orderly_table.numbered
  refine ⟨description, scope, rfl, stored, h, isOk.mp ⟨scope, h⟩, ?_, ?_, ?_, ?_, ?_⟩
  · rw [means]
    decide +kernel
  · rw [means]
    decide +kernel
  · rw [means]
    decide +kernel
  · obtain ⟨changes, exact⟩ := binds scope "g" ["m"] ["s", "s"]
    have lists : Lists scope.table ["m"] ["s", "s"] := by
      rw [table]
      exact ⟨by decide +kernel, by decide +kernel, by decide +kernel⟩
    obtain ⟨bound, has⟩ := (exact numbered).1.mpr lists
    rcases changes with ⟨error, failed, _⟩ | ⟨_, same, done, means, _, others⟩
    · rw [has] at failed
      cases failed
    · refine ⟨_, done, ?_, others "rate" (by decide)⟩
      rw [means, (exact numbered).2 _ same, table]
      decide +kernel
  · obtain ⟨changes, exact⟩ := binds scope "rate" ["m", "furlong"] []
    rcases changes with ⟨error, _, failed, _⟩ | ⟨bound, has, _⟩
    · exact ⟨error, failed⟩
    · have lists := (exact numbered).1.mp ⟨bound, has⟩
      have answered := lists.answered "furlong" (by decide)
      rw [table] at answered
      exact absurd answered (by decide +kernel)

end Scope

end Dimensional
