import Dimensional.Proofs.Parser.Likeness
import Dimensional.Proofs.Quantity.Renumbering
import Dimensional.Proofs.Scope

/-! The order in which dimensions are declared, and so the choice of their primes, cannot be told
from what is read. -/

namespace Dimensional

open Dimensional.Parser

/-- A node without primes and their products. -/
def Node.erased (node : Node) : Node := { node with worth := node.worth.erased }

/-- Names mean the same over two tables, up to the primes. -/
structure Vocabulary.Renumbered (left right : Table) (vocabulary other : Vocabulary) : Prop where
  quantity? : ∀ name, Option.Rel (Quantity.Renumbered left right) (vocabulary.quantity? name)
    (other.quantity? name)
  dimension? : ∀ name, Option.Rel (Dimension.Renumbered left right) (vocabulary.dimension? name)
    (other.dimension? name)

namespace Vocabulary.Renumbered

variable {left right : Table} {vocabulary other : Vocabulary}
  (alike : vocabulary.Renumbered left right other)

include alike

theorem knowsDimension_eq (name : String) :
    vocabulary.knowsDimension name = other.knowsDimension name := by
  have dimensions := alike.dimension? name
  unfold knowsDimension
  generalize vocabulary.dimension? name = found, other.dimension? name = same at dimensions ⊢
  cases dimensions <;> rfl

theorem resolve? (tables : left.Renumbered right) (name : String) :
    Option.Rel (Quantity.Renumbered left right) (vocabulary.resolve? name)
      (other.resolve? name) := by
  have quantities := alike.quantity? name
  have dimensions := alike.dimension? name
  unfold Vocabulary.resolve?
  generalize vocabulary.quantity? name = bound, other.quantity? name = sameBound,
    vocabulary.dimension? name = found, other.dimension? name = sameFound at quantities dimensions ⊢
  cases quantities with
  | some quantities => exact .some quantities
  | none =>
    cases dimensions with
    | none => exact .none
    | some dimensions => exact .some (Quantity.renumbered_ofDimension tables dimensions)

end Vocabulary.Renumbered

namespace Parser.Likeness

/-- What is the same up to the primes of two tables is alike, and products that overflow are
excused. -/
def renumbering (left right : Table) : Likeness where
  admits _ := True
  excused error := error = .overflow
  seen := Worth.erased
  worth := Worth.Renumbered left right
  chain := Chain.Renumbered left right

variable {left right : Table} {vocabulary other : Vocabulary}

theorem named_renumbering (tables : left.Renumbered right)
    (alike : vocabulary.Renumbered left right other) {token : Token} {numbering : Numbering} :
    (namedNode vocabulary grammar token numbering).Alike (renumbering left right).Excuses
      (fun read same => (renumbering left right).Trees read.1 same.1 ∧ read.2 = same.2)
      (namedNode other grammar token numbering) := by
  have node {quantity counterpart : Quantity} (parameter? : Option Nat)
      (quantities : quantity.Renumbered left right counterpart) :
      (renumbering left right).Trees (nameNode token quantity parameter?)
        (nameNode token counterpart parameter?) := by
    refine ⟨?_, .quantity quantities⟩
    rw [nameNode, nameNode, Tree.map_leaf, Tree.map_leaf, look, look]
    dsimp only [renumbering]
    rw [(Worth.Renumbered.quantity quantities).erased_eq]
  have resolved := alike.resolve? tables token.text
  unfold namedNode isFree
  rw [alike.knowsDimension_eq]
  generalize vocabulary.resolve? token.text = meaning, other.resolve? token.text = same
    at resolved ⊢
  cases resolved with
  | none => exact .same _
  | some quantities =>
    cases grammar with
    | numeric =>
      dsimp only
      rw [quantities.isConstant_eq, quantities.isDimensionless_eq tables,
        quantities.dimensionText_eq]
      split
      · exact .same _
      · split
        · exact .same _
        · exact .ok ⟨node none quantities, rfl⟩
    | quantity =>
      dsimp only
      rw [quantities.isConstant_eq, quantities.isDimensionless_eq tables]
      split
      · exact .ok ⟨node _ quantities, rfl⟩
      · exact .ok ⟨node none quantities, rfl⟩

theorem holds_renumbering (tables : left.Renumbered right)
    (alike : vocabulary.Renumbered left right other) :
    (renumbering left right).Holds vocabulary other where
  seen_eq worths := worths.erased_eq
  value_eq worths := worths.value_eq
  number value := .number value
  constant value := .quantity (Quantity.renumbered_constant value)
  knowsDimension _ _ := alike.knowsDimension_eq _
  named _ _ := named_renumbering tables alike
  ofAtom worths := worths.ofAtom _
  power times worths := worths.power tables times
  add worths terms := worths.add tables _ terms
  ofFactor worths := worths.ofFactor tables _ _
  apply chains worths := chains.apply tables worths _
  finish chains := chains.finish
  vectorProduct firsts seconds :=
    (firsts.toQuantity.vectorProduct tables _ seconds.toQuantity (alike.dimension? _)).mono
      fun _ _ product => .quantity product

end Parser.Likeness

namespace Scope

/-- The same is declared over two tables, up to the primes. -/
structure Renumbered (left right : Scope) : Prop where
  tables : left.table.Renumbered right.table
  bindings : List.Forall₂ (fun entry other => entry.1 = other.1 ∧
    entry.2.Renumbered left.table right.table other.2) left.bindings right.bindings

/-- A declaration of a dimension, as the dimension without its prime. -/
def DimensionDeclaration.erased (declaration : DimensionDeclaration) : Dimension :=
  ⟨declaration.name, declaration.symbol?, 0⟩

section Declarations

variable {scope extended left right leftExtended rightExtended : Scope} {name : String}
  {declarations others : List DimensionDeclaration}

/-- Declared dimensions follow those that are there, whatever primes they get. -/
theorem declareDimensions_eq_ok (h : scope.declareDimensions declarations = .ok extended) :
    extended.bindings = scope.bindings ∧
      scope.table.dimensions ⊆ extended.table.dimensions ∧
      extended.table.dimensions.map Dimension.erased =
        scope.table.dimensions.map Dimension.erased ++
          declarations.map DimensionDeclaration.erased ∧
      (scope.table.Numbered → extended.table.Numbered) ∧
      (scope.table.Distinct → extended.table.Distinct) := by
  induction declarations generalizing scope with
  | nil =>
    cases h
    exact ⟨rfl, List.Subset.refl _, by simp, id, id⟩
  | cons declaration declarations ih =>
    unfold Scope.declareDimensions at h
    rw [List.foldlM_cons] at h
    obtain ⟨next, step, h⟩ := Except.bind_eq_ok.mp h
    split at step
    · rename_i reached
      cases step
      obtain ⟨⟨dimension, table⟩, inserted, same⟩ := Except.map_eq_ok.mp reached
      obtain ⟨rfl, rfl⟩ := Prod.mk.inj same
      obtain ⟨kept, grows, dimensions, numbered, distinct⟩ := ih h
      obtain ⟨_, name, symbol?, _, added⟩ := Table.insert_eq_ok inserted
      have first : dimension.erased = declaration.erased := by
        rw [Dimension.erased, name, symbol?]
        rfl
      refine ⟨kept, List.Subset.trans (Table.subset_of_insert inserted) grows, ?_,
        fun ofNumbered => numbered (ofNumbered.insert inserted),
        fun ofDistinct => distinct (ofDistinct.insert inserted)⟩
      rw [dimensions, added, List.map_append, List.map_singleton, first, List.append_assoc]
      rfl
    · cases step

namespace Renumbered

theorem empty : empty.Renumbered .empty :=
  ⟨⟨Table.numbered_empty, Table.numbered_empty, Table.distinct_empty, Table.distinct_empty,
    .refl _⟩, .nil⟩

theorem declareDimensions (alike : left.Renumbered right) (same : declarations.Perm others)
    (h : left.declareDimensions declarations = .ok leftExtended)
    (h' : right.declareDimensions others = .ok rightExtended) :
    leftExtended.Renumbered rightExtended := by
  obtain ⟨kept, grows, dimensions, numbered, distinct⟩ := declareDimensions_eq_ok h
  obtain ⟨kept', grows', dimensions', numbered', distinct'⟩ := declareDimensions_eq_ok h'
  obtain ⟨⟨ofNumbered, ofNumbered', ofDistinct, ofDistinct', perm⟩, bindings⟩ := alike
  refine ⟨⟨numbered ofNumbered, numbered' ofNumbered', distinct ofDistinct, distinct' ofDistinct',
    ?_⟩, ?_⟩
  · rw [dimensions, dimensions']
    exact perm.append (same.map _)
  · rw [kept, kept']
    exact bindings.imp fun _ _ both => ⟨both.1, both.2.mono grows grows'⟩

theorem bind (alike : left.Renumbered right) (name : String) {quantity other : Quantity}
    (quantities : quantity.Renumbered left.table right.table other) :
    (left.bind name quantity).Renumbered (right.bind name other) := by
  refine ⟨alike.tables, .cons ⟨rfl, quantities.named name⟩ ?_⟩
  refine List.rel_filter ?_ alike.bindings
  rintro entry other ⟨same, _⟩
  dsimp only
  rw [same]

theorem bindConstant (alike : left.Renumbered right) (name : String) (value : Float) :
    (left.bindConstant name value).Renumbered (right.bindConstant name value) :=
  alike.bind name (Quantity.renumbered_constant value)

/-- What is built of dimensions by their keys is the same if it can be built in both scopes. -/
theorem monomial (alike : left.Renumbered right) (name : String) (keys : List String) :
    (left.monomial name keys).Alike (fun _ => True)
      (Monomial.Renumbered left.table right.table) (right.monomial name keys) := by
  refine Except.Alike.foldlM (fun product other key products => ?_) Monomial.renumbered_one keys
  have found := alike.tables.get?_rel key
  unfold multiplyKey
  generalize left.table.get? key = dimension?, right.table.get? key = other? at found ⊢
  cases found with
  | none => exact .same _
  | some dimensions =>
    refine Except.Alike.mapError (products.append alike.tables ?_ ?_ ?_) fun _ _ => trivial
    · exact List.cons_subset.mpr ⟨dimensions.member, List.nil_subset _⟩
    · exact List.cons_subset.mpr ⟨dimensions.otherMember, List.nil_subset _⟩
    · exact congrArg (fun erased => [erased]) dimensions.erased

theorem quantity (alike : left.Renumbered right) (name : String)
    (numerator denominator : List String) :
    (left.quantity name numerator denominator).Alike (fun _ => True)
      (Quantity.Renumbered left.table right.table) (right.quantity name numerator denominator) := by
  refine (alike.monomial name numerator).bind fun _ _ _ _ above => ?_
  exact (alike.monomial name denominator).bind fun _ _ _ _ below => .ok ⟨above, below, rfl⟩

theorem bindQuantity (alike : left.Renumbered right) {numerator denominator : List String}
    (h : left.bindQuantity name numerator denominator = .ok leftExtended)
    (h' : right.bindQuantity name numerator denominator = .ok rightExtended) :
    leftExtended.Renumbered rightExtended := by
  have bound := (alike.quantity name numerator denominator).map fun _ _ quantities =>
    alike.bind name quantities
  exact bound.related_of_ok h h'

theorem declared (alike : left.Renumbered right) (declaration : QuantityDeclaration) :
    (left.declared declaration).Alike (fun _ => True)
      (Quantity.Renumbered left.table right.table) (right.declared declaration) := by
  refine (alike.quantity _ _ _).map fun _ _ quantities => ?_
  obtain ⟨above, below, rfl⟩ := quantities.exists_products
  dsimp only
  split
  · exact ⟨quantities.numerator, quantities.denominator, rfl⟩
  · exact ⟨quantities.numerator, quantities.denominator, rfl⟩

theorem declareQuantities (alike : left.Renumbered right)
    (declarations : List QuantityDeclaration) :
    (left.declareQuantities declarations).Alike (fun _ => True) Renumbered
      (right.declareQuantities declarations) :=
  Except.Alike.foldlM (fun _ _ declaration alike =>
    (alike.declared declaration).map fun _ _ quantities => alike.bind _ quantities)
    alike declarations

theorem declareConstants (alike : left.Renumbered right)
    (declarations : List ConstantDeclaration) :
    (left.declareConstants declarations).Renumbered (right.declareConstants declarations) := by
  induction declarations generalizing left right with
  | nil => exact alike
  | cons declaration declarations ih => exact ih (alike.bindConstant _ _)

theorem get? (alike : left.Renumbered right) (name : String) :
    Option.Rel (Quantity.Renumbered left.table right.table) (left.get? name) (right.get? name) := by
  have found {entries others : List (String × Quantity)}
      (bindings : List.Forall₂ (fun entry other => entry.1 = other.1 ∧
        entry.2.Renumbered left.table right.table other.2) entries others) :
      Option.Rel (Quantity.Renumbered left.table right.table) (entries.lookup name)
        (others.lookup name) := by
    induction bindings with
    | nil => exact .none
    | @cons entry other _ _ first _ ih =>
      obtain ⟨key, quantity⟩ := entry
      obtain ⟨_, counterpart⟩ := other
      obtain ⟨rfl, quantities⟩ := first
      rw [List.lookup_cons, List.lookup_cons]
      cases name == key with
      | true => exact .some quantities
      | false => exact ih
  exact found alike.bindings

theorem vocabulary (alike : left.Renumbered right) :
    left.vocabulary.Renumbered left.table right.table right.vocabulary :=
  ⟨alike.get?, alike.tables.get?_rel⟩

theorem si : si.Renumbered .si := by
  let declarations := Table.si.dimensions.map fun dimension =>
    DimensionDeclaration.mk dimension.name dimension.symbol?
  have declared : Scope.empty.declareDimensions declarations = .ok (.ofTable .si) :=
    Except.toOption_eq_some.mp (by decide +kernel)
  exact (empty.declareDimensions (.refl _) declared declared).bindConstant _ _

theorem ofDescription {dimensions others : List DimensionDeclaration}
    {constants : List ConstantDeclaration} {quantities : List QuantityDeclaration}
    {includeSi : Bool} (same : dimensions.Perm others)
    (h : Scope.ofDescription ⟨includeSi, dimensions, constants, quantities⟩ = .ok left)
    (h' : Scope.ofDescription ⟨includeSi, others, constants, quantities⟩ = .ok right) :
    left.Renumbered right := by
  obtain ⟨measured, declared, h⟩ := Except.bind_eq_ok.mp h
  obtain ⟨measured', declared', h'⟩ := Except.bind_eq_ok.mp h'
  have base (includeSi : Bool) : (if includeSi then Scope.si else .empty).Renumbered
      (if includeSi then Scope.si else .empty) := by
    cases includeSi with
    | true => exact si
    | false => exact empty
  have measures := (base includeSi).declareDimensions same declared declared'
  exact ((measures.declareConstants constants).declareQuantities quantities).related_of_ok h h'

end Renumbered

end Declarations

/-- Two scopes that are built by the same calls, but that dimensions are declared in any two orders.
What is bound is built over either table and the same up to the primes. -/
inductive BuiltAlike : Scope → Scope → Prop where
  | empty : BuiltAlike .empty .empty
  | si : BuiltAlike .si .si
  | declareDimensions (alike : BuiltAlike left right) (same : declarations.Perm others)
      (h : left.declareDimensions declarations = .ok leftExtended)
      (h' : right.declareDimensions others = .ok rightExtended) :
      BuiltAlike leftExtended rightExtended
  | bind (name : String) {quantity other : Quantity} (alike : BuiltAlike left right)
      (ofLeft : quantity.Built left.table) (ofRight : other.Built right.table)
      (same : quantity.erased = other.erased) :
      BuiltAlike (left.bind name quantity) (right.bind name other)
  | bindConstant (name : String) (value : Float) (alike : BuiltAlike left right) :
      BuiltAlike (left.bindConstant name value) (right.bindConstant name value)
  | bindQuantity {name : String} (alike : BuiltAlike left right)
      (h : left.bindQuantity name numerator denominator = .ok leftExtended)
      (h' : right.bindQuantity name numerator denominator = .ok rightExtended) :
      BuiltAlike leftExtended rightExtended
  | ofDescription (same : dimensions.Perm others)
      (h : Scope.ofDescription ⟨includeSi, dimensions, constants, quantities⟩ = .ok left)
      (h' : Scope.ofDescription ⟨includeSi, others, constants, quantities⟩ = .ok right) :
      BuiltAlike left right

variable {left right : Scope}

/-- Every call keeps the scopes the same up to the primes. -/
theorem BuiltAlike.renumbered (alike : left.BuiltAlike right) : left.Renumbered right := by
  induction alike with
  | empty => exact .empty
  | si => exact .si
  | declareDimensions _ same h h' ih => exact ih.declareDimensions same h h'
  | bind name _ ofLeft ofRight same ih =>
    exact ih.bind name (Quantity.renumbered_of_erased_eq (ofLeft.isOver ih.tables.numbered)
      (ofRight.isOver ih.tables.otherNumbered) same)
  | bindConstant name value _ ih => exact ih.bindConstant name value
  | bindQuantity _ h h' ih => exact ih.bindQuantity h h'
  | ofDescription same h h' => exact .ofDescription same h h'

/-- The order in which dimensions were declared cannot be told from what is read, unless a product
of primes overflows: the same error is met, or the same tree is read up to the primes. -/
theorem BuiltAlike.read_erased (alike : left.BuiltAlike right) (grammar : Grammar) (source : String)
    (fits : ∀ location, read (.standard left.vocabulary) grammar source ≠
      .error (.algebra .overflow location))
    (otherFits : ∀ location, read (.standard right.vocabulary) grammar source ≠
      .error (.algebra .overflow location)) :
    (read (.standard left.vocabulary) grammar source).map (Tree.map Node.erased) =
      (read (.standard right.vocabulary) grammar source).map (Tree.map Node.erased) := by
  have renumbered := alike.renumbered
  have holds := Likeness.holds_renumbering renumbered.tables renumbered.vocabulary
  have readings := holds.read
    (fun (_ : Token) (_ : _ ∈ (Scanner.ofString source).tokens) => trivial) grammar
  have overflows (error : ParseError)
      (excused : (Likeness.renumbering left.table right.table).Excuses error) :
      ∃ location, error = .algebra .overflow location := by
    cases error with
    | algebra reason location =>
      obtain rfl : reason = .overflow := excused
      exact ⟨location, rfl⟩
    | invalidToken | invalidNumber | unexpected | unknownIdentifier | notConstant
    | notDimensionless | tooDeep => exact excused.elim
  refine readings.map_eq (fun _ _ trees => trees.1) ?_ ?_
  · intro error failed excused
    obtain ⟨location, rfl⟩ := overflows error excused
    exact fits location failed
  · intro error failed excused
    obtain ⟨location, rfl⟩ := overflows error excused
    exact otherFits location failed

/-- A speed over two tables has the same dimensions, though not the same primes. -/
theorem exists_reading_of_swapped :
    ∃ (left right : Scope) (tree other : Expression), left.BuiltAlike right ∧
      read (.standard left.vocabulary) .quantity "m / s" = .ok tree ∧
      read (.standard right.vocabulary) .quantity "m / s" = .ok other ∧
      tree ≠ other ∧ tree.map Node.erased = other.map Node.erased := by
  let meter : DimensionDeclaration := ⟨"meter", some "m"⟩
  let second : DimensionDeclaration := ⟨"second", some "s"⟩
  let left := ofTable ⟨[⟨"meter", some "m", 2⟩, ⟨"second", some "s", 3⟩]⟩
  let right := ofTable ⟨[⟨"second", some "s", 2⟩, ⟨"meter", some "m", 3⟩]⟩
  have declared : empty.declareDimensions [meter, second] = .ok left :=
    Except.toOption_eq_some.mp (by decide +kernel)
  have swapped : empty.declareDimensions [second, meter] = .ok right :=
    Except.toOption_eq_some.mp (by decide +kernel)
  have alike : left.BuiltAlike right := .declareDimensions .empty (.swap _ _ _) declared swapped
  let product (tree : Expression) : Option Nat :=
    tree.root.quantity?.map fun quantity => quantity.numerator.product
  have ofLeft : (read (.standard left.vocabulary) .quantity "m / s").toOption.map product =
      some (some 2) := by
    decide +kernel
  have ofRight : (read (.standard right.vocabulary) .quantity "m / s").toOption.map product =
      some (some 3) := by
    decide +kernel
  obtain ⟨tree, some, two⟩ := Option.map_eq_some_iff.mp ofLeft
  obtain ⟨other, also, three⟩ := Option.map_eq_some_iff.mp ofRight
  have first := Except.toOption_eq_some.mp some
  have second := Except.toOption_eq_some.mp also
  have same := alike.read_erased .quantity "m / s" (by rw [first]; nofun) (by rw [second]; nofun)
  rw [first, second] at same
  refine ⟨left, right, tree, other, alike, first, second, ?_, Except.ok.inj same⟩
  rintro rfl
  rw [two] at three
  cases three

end Scope

end Dimensional
