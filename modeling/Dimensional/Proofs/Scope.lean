import Dimensional.Proofs.Judgement.Quantity
import Dimensional.Proofs.Parser.Whole
import Dimensional.Proofs.Quantity.Built
import Dimensional.Scope.Description

/-! The scopes that can be built. Their names stand for quantities over their tables, so that
expressions are read as they are judged. -/

namespace Dimensional

/-- Scopes that arise from tables to start from by declarations of any kind, and by binding
quantities as they are where the table permits it. -/
inductive Scope.Arises (starts : Table → Prop) (permits : Table → Quantity → Prop) : Scope → Prop where
  | ofTable {table : Table} (start : starts table) : Arises starts permits (.ofTable table)
  | si : Arises starts permits .si
  | insertDimension (arises : Arises starts permits scope)
      (h : scope.insertDimension name symbol? = .ok (dimension, extended)) :
      Arises starts permits extended
  | bind (name : String) {quantity : Quantity} (arises : Arises starts permits scope)
      (permitted : permits scope.table quantity) : Arises starts permits (scope.bind name quantity)
  | bindConstant (name : String) (value : Float) (arises : Arises starts permits scope) :
      Arises starts permits (scope.bindConstant name value)
  | bindQuantity (arises : Arises starts permits scope)
      (h : scope.bindQuantity name numerator denominator = .ok extended) :
      Arises starts permits extended
  | ofDescription (h : Scope.ofDescription description = .ok scope) : Arises starts permits scope

/-- Scopes over tables that can be reached, in which quantities over them are bound. -/
abbrev Scope.Built : Scope → Prop :=
  Scope.Arises Table.Reached fun table quantity => quantity.Built table

open Dimensional.Parser

namespace Scope

/-- Dimensions are numbered by primes, and all that is bound is over them. -/
structure Sound (scope : Scope) : Prop where
  numbered : scope.table.Numbered
  isOver : ∀ entry ∈ scope.bindings, entry.2.IsOver scope.table

variable {scope extended : Scope} {name : String} {symbol? : Option String}
  {dimension : Dimension} {bound : Quantity}

theorem sound_ofTable {table : Table} (numbered : table.Numbered) : (ofTable table).Sound :=
  ⟨numbered, nofun⟩

/-- What holds of the bindings and of one more quantity holds of all of them. -/
theorem forall_bind {p : String × Quantity → Prop} (all : ∀ entry ∈ scope.bindings, p entry)
    (new : p (name, bound.named name)) : ∀ entry ∈ (scope.bind name bound).bindings, p entry := by
  intro entry member
  rcases List.mem_cons.mp member with rfl | earlier
  · exact new
  · exact all entry (List.mem_filter.mp earlier).1

theorem Sound.bind (sound : scope.Sound) (isOver : bound.IsOver scope.table) :
    (scope.bind name bound).Sound :=
  ⟨sound.numbered, forall_bind sound.isOver ⟨isOver.numerator, isOver.denominator⟩⟩

theorem Sound.bindConstant (sound : scope.Sound) {value : Float} :
    (scope.bindConstant name value).Sound :=
  sound.bind ⟨Monomial.isOver_one, Monomial.isOver_one⟩

theorem sound_si : si.Sound := (sound_ofTable Table.numbered_si).bindConstant

theorem Sound.insertDimension (sound : scope.Sound)
    (h : scope.insertDimension name symbol? = .ok (dimension, extended)) : extended.Sound := by
  obtain ⟨⟨_, table⟩, inserted, same⟩ := Except.map_eq_ok.mp h
  cases same
  refine ⟨sound.numbered.insert inserted, ?_⟩
  intro entry member
  exact (sound.isOver entry member).mono (Table.subset_of_insert inserted)

theorem singleton_subset {key : String} (found : scope.table.get? key = some dimension) :
    [dimension] ⊆ scope.table.dimensions :=
  List.cons_subset.mpr ⟨List.mem_of_find?_eq_some found, List.nil_subset _⟩

theorem multiplyKey_eq_ok_iff {key : String} {start result : Monomial} :
    scope.multiplyKey name start key = .ok result ↔
      ∃ dimension, scope.table.get? key = some dimension ∧
        start.append [dimension] = .ok result := by
  rw [multiplyKey]
  cases scope.table.get? key with
  | none => exact iff_of_false nofun nofun
  | some dimension =>
    refine Except.mapError_eq_ok.trans ⟨fun multiplied => ⟨dimension, rfl, multiplied⟩, ?_⟩
    rintro ⟨_, ⟨⟩, multiplied⟩
    exact multiplied

/-- One dimension after another is multiplied by. -/
theorem Sound.isOver_of_monomial (sound : scope.Sound) {keys : List String} {monomial : Monomial}
    (h : scope.monomial name keys = .ok monomial) : monomial.IsOver scope.table := by
  refine Except.foldlM_preserves (p := fun monomial => monomial.IsOver scope.table) ?_
    Monomial.isOver_one h
  intro monomial key _ next isOver step
  obtain ⟨dimension, found, multiplied⟩ := multiplyKey_eq_ok_iff.mp step
  exact (isOver.append sound.numbered (singleton_subset found) multiplied).1

/-- Nothing is known of the value of a quantity that is listed by its dimensions. -/
theorem quantity_eq_ok {numerator denominator : List String} :
    scope.quantity name numerator denominator = .ok bound ↔
      ∃ above, scope.monomial name numerator = .ok above ∧
        ∃ below, scope.monomial name denominator = .ok below ∧
          { Quantity.unknown with numerator := above, denominator := below } = bound := by
  rw [quantity, Except.bind_eq_ok]
  simp only [Except.bind_eq_ok, pure, Except.pure, Except.ok.injEq]

theorem Sound.isOver_of_quantity (sound : scope.Sound) {numerator denominator : List String}
    (h : scope.quantity name numerator denominator = .ok bound) : bound.IsOver scope.table := by
  obtain ⟨above, ofAbove, below, ofBelow, rfl⟩ := quantity_eq_ok.mp h
  exact ⟨sound.isOver_of_monomial ofAbove, sound.isOver_of_monomial ofBelow⟩

theorem Sound.bindQuantity (sound : scope.Sound) {numerator denominator : List String}
    (h : scope.bindQuantity name numerator denominator = .ok extended) : extended.Sound := by
  obtain ⟨bound, described, rfl⟩ := Except.map_eq_ok.mp h
  exact sound.bind (sound.isOver_of_quantity described)

/-- Whether it is a vector and what its value is do not matter. -/
theorem Sound.isOver_of_declared (sound : scope.Sound) {declaration : QuantityDeclaration}
    (h : scope.declared declaration = .ok bound) : bound.IsOver scope.table := by
  obtain ⟨described, found, rfl⟩ := Except.map_eq_ok.mp h
  have isOver := sound.isOver_of_quantity found
  dsimp only
  split
  · exact ⟨isOver.numerator, isOver.denominator⟩
  · exact ⟨isOver.numerator, isOver.denominator⟩

/-- What every declaration preserves holds of the scopes that are described. -/
theorem ofDescription_preserves {p : Scope → Prop} (ofSi : p si) (ofEmpty : p empty)
    (insertDimension : ∀ {scope extended name symbol? dimension}, p scope →
      scope.insertDimension name symbol? = .ok (dimension, extended) → p extended)
    (bindConstant : ∀ {scope name value}, p scope → p (scope.bindConstant name value))
    (bindDeclared : ∀ {scope declaration bound}, p scope →
      scope.declared declaration = .ok bound → p (scope.bind declaration.name bound))
    {description : Description} (h : ofDescription description = .ok scope) : p scope := by
  obtain ⟨measured, dimensions, h⟩ := Except.bind_eq_ok.mp h
  have base : p (if description.includeSi then si else empty) := by
    split
    · exact ofSi
    · exact ofEmpty
  have ofDimensions : p measured := by
    refine Except.foldlM_preserves ?_ base dimensions
    intro scope declaration _ next holds step
    split at step
    · rename_i inserted
      cases step
      exact insertDimension holds inserted
    · cases step
  have ofConstants : p (measured.declareConstants description.constants) :=
    List.foldlRecOn _ _ ofDimensions fun _ holds _ _ => bindConstant holds
  refine Except.foldlM_preserves ?_ ofConstants h
  intro scope declaration _ next holds step
  obtain ⟨bound, declared, rfl⟩ := Except.map_eq_ok.mp step
  exact bindDeclared holds declared

theorem sound_of_ofDescription {description : Description}
    (h : ofDescription description = .ok scope) : scope.Sound :=
  ofDescription_preserves sound_si (sound_ofTable Table.numbered_empty) Sound.insertDimension
    (fun sound => sound.bindConstant)
    (fun sound declared => sound.bind (sound.isOver_of_declared declared)) h

/-- A quantity that is listed by its dimensions alone is declared without a value. -/
theorem declared_of_quantity {numerator denominator : List String}
    (h : scope.quantity name numerator denominator = .ok bound) :
    scope.declared ⟨name, numerator, denominator, false, none⟩ = .ok bound := by
  rw [declared, h]
  obtain ⟨_, _, _, _, rfl⟩ := quantity_eq_ok.mp h
  rfl

section Arises

variable {starts others : Table → Prop} {permits allows : Table → Quantity → Prop}

/-- Wherever more may be started from and bound, no fewer scopes arise. -/
theorem Arises.mono (arises : scope.Arises starts permits)
    (more : ∀ {table}, starts table → others table)
    (further : ∀ {table quantity}, permits table quantity → allows table quantity) :
    scope.Arises others allows := by
  induction arises with
  | ofTable start => exact .ofTable (more start)
  | si => exact .si
  | insertDimension _ h ih => exact ih.insertDimension h
  | bind name _ permitted ih => exact ih.bind name (further permitted)
  | bindConstant name value _ ih => exact ih.bindConstant name value
  | bindQuantity _ h ih => exact ih.bindQuantity h
  | ofDescription h => exact .ofDescription h

/-- What holds of constants, of declared quantities and of those that may be bound, and does not
depend on names, holds of all that is bound. -/
theorem Arises.forall_bindings {p : Quantity → Prop} (arises : scope.Arises starts permits)
    (named : ∀ {quantity : Quantity} {name : String}, p quantity → p (quantity.named name))
    (ofConstant : ∀ value, p (.constant value))
    (ofDeclared : ∀ {scope : Scope} {declaration bound},
      scope.declared declaration = .ok bound → p bound)
    (ofPermitted : ∀ {table quantity}, permits table quantity → p quantity) :
    ∀ entry ∈ scope.bindings, p entry.2 := by
  have ofSi : ∀ entry ∈ Scope.si.bindings, p entry.2 := forall_bind nofun (named (ofConstant _))
  have inserted {scope extended : Scope} {name : String} {symbol? : Option String}
      {dimension : Dimension} (all : ∀ entry ∈ scope.bindings, p entry.2)
      (h : scope.insertDimension name symbol? = .ok (dimension, extended)) :
      ∀ entry ∈ extended.bindings, p entry.2 := by
    obtain ⟨⟨_, table⟩, _, same⟩ := Except.map_eq_ok.mp h
    cases same
    exact all
  induction arises with
  | ofTable => exact nofun
  | si => exact ofSi
  | insertDimension _ h ih => exact inserted ih h
  | bind _ _ permitted ih => exact forall_bind ih (named (ofPermitted permitted))
  | bindConstant _ _ _ ih => exact forall_bind ih (named (ofConstant _))
  | bindQuantity _ h ih =>
    obtain ⟨bound, described, rfl⟩ := Except.map_eq_ok.mp h
    exact forall_bind ih (named (ofDeclared (declared_of_quantity described)))
  | ofDescription h =>
    exact ofDescription_preserves (p := fun scope => ∀ entry ∈ scope.bindings, p entry.2) ofSi
      nofun inserted (fun all => forall_bind all (named (ofConstant _)))
      (fun all declared => forall_bind all (named (ofDeclared declared))) h

end Arises

/-- However a scope was built, it is sound. -/
theorem Built.sound (built : scope.Built) : scope.Sound := by
  induction built with
  | ofTable reached => exact sound_ofTable reached.numbered
  | si => exact sound_si
  | insertDimension _ h ih => exact ih.insertDimension h
  | bind name _ ofQuantity ih => exact ih.bind (ofQuantity.isOver ih.numbered)
  | bindConstant name value _ ih => exact ih.bindConstant
  | bindQuantity _ h ih => exact ih.bindQuantity h
  | ofDescription h => exact sound_of_ofDescription h

/-- What is bound to a name is among the bindings. -/
theorem mem_of_get? (looked : scope.get? name = some bound) : (name, bound) ∈ scope.bindings := by
  obtain ⟨before, after, parts, _⟩ := List.lookup_eq_some_iff.mp looked
  simp [parts]

/-- All names of a sound scope stand for quantities and dimensions over its table. -/
theorem Sound.vocabulary_isOver (sound : scope.Sound) :
    scope.vocabulary.IsOver scope.table := by
  have ofDimension (key : String) (dimension : Dimension)
      (found : scope.table.get? key = some dimension) : dimension ∈ scope.table.dimensions :=
    List.mem_of_find?_eq_some found
  refine ⟨?_, ofDimension⟩
  intro name bound found
  unfold Vocabulary.resolve? at found
  split at found
  · rename_i looked
    cases found
    exact sound.isOver _ (mem_of_get? looked)
  · obtain ⟨dimension, looked, rfl⟩ := Option.map_eq_some_iff.mp found
    exact ⟨Monomial.isOver_singleton sound.numbered (ofDimension name dimension looked),
      Monomial.isOver_one⟩

/-- In a scope that was built, quantities are read exactly when they are judged to have dimensions
and no zero is raised to zero, and what is read has the dimensions that were judged. -/
theorem Built.reads_as_judged (built : scope.Built) {tokens : List Token}
    (derivation : Derivation (.expression .quantity))
    (permitted : derivation.Permitted scope.vocabulary) (same : derivation.tokens = beforeEnd tokens)
    (readable : Readable derivation.tokens) (resolves : derivation.Resolves scope.vocabulary)
    (nested : derivation.nesting ≤ nestingLimit) :
    (∀ measure, derivation.judge scope.vocabulary () = some measure →
      derivation.raisesZeroToZero scope.vocabulary = false →
      ∃ tree quantity, readTokens (.standard scope.vocabulary) .quantity tokens = .ok tree ∧
        tree.root.quantity? = some quantity ∧ quantity.measure = measure ∧
        quantity.scalar = derivation.scalar scope.vocabulary ()) ∧
    (derivation.judge scope.vocabulary () = none ∨
      derivation.raisesZeroToZero scope.vocabulary = true →
      ∃ error location, readTokens (.standard scope.vocabulary) .quantity tokens =
        .error (.algebra error location)) := by
  have sound := built.sound
  have admits : (Setting.standard scope.vocabulary).Admits (0 + derivation.nesting) := by
    rintro limit ⟨⟩
    rwa [Nat.zero_add]
  have rightly : derivation.JudgedRightly scope.table (.standard scope.vocabulary) :=
    derivation.judgedRightly sound.numbered sound.vocabulary_isOver rfl
  have judged := rightly () () () 0 .empty trivial admits readable resolves
  rw [readTokens_eq_evaluate derivation permitted same]
  constructor
  · intro measure some permits
    obtain ⟨tree, after, evaluated, quantity, worth, has⟩ := judged.1 measure some permits
    refine ⟨tree, quantity, ?_, ?_, has.measure, has.scalar⟩
    · rw [evaluated]
      rfl
    · exact congrArg Worth.quantity? worth
  · intro refused
    obtain ⟨error, location, evaluated⟩ := judged.2 refused
    refine ⟨error, location, ?_⟩
    rw [evaluated]
    rfl

/-- An acceleration, whose first sign is left out. -/
theorem exists_measure_of_acceleration :
    ∃ tokens tree quantity, readTokens (.standard si.vocabulary) .quantity tokens = .ok tree ∧
      tree.root.quantity? = some quantity ∧
      quantity.measure = ⟨{⟨"meter", some "m", 2⟩},
        {⟨"second", some "s", 5⟩, ⟨"second", some "s", 5⟩}, false⟩ := by
  let number (text : String) : Terminal .number := ⟨⟨.number, text, .start⟩, rfl⟩
  let word (text : String) : Terminal .identifier := ⟨⟨.identifier, text, .start⟩, rfl⟩
  let derivation : Derivation (.expression .quantity) :=
    .expression
      (.term (.factor (.literal (number "3")))
        (.silent (.factor (.name (word "m")))
          (.product .over ⟨⟨.over, "/", .start⟩, rfl⟩
            (.raised (.name (word "s")) ⟨⟨.power, "**", .start⟩, rfl⟩ (.integer (number "2")))
            .lastFactor)))
      .lastTerm
  have judged : derivation.judge si.vocabulary () = some ⟨{⟨"meter", some "m", 2⟩},
      {⟨"second", some "s", 5⟩, ⟨"second", some "s", 5⟩}, false⟩ := by
    decide +kernel
  have whole : derivation.tokens = beforeEnd derivation.tokens := by decide +kernel
  obtain ⟨tree, quantity, read, worth, measure, _⟩ :=
    (Built.reads_as_judged .si derivation (by decide +kernel) whole (by decide +kernel)
      (by decide +kernel) (by decide +kernel)).1 _ judged (by decide +kernel)
  exact ⟨derivation.tokens, tree, quantity, read, worth, measure⟩

end Scope

end Dimensional
