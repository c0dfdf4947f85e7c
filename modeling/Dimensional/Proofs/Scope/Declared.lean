import Dimensional.Proofs.Derivation.AsQuantity
import Dimensional.Proofs.Scope

/-! In scopes whose constants are known by their values, what is read as a number is read as a
quantity of the same value. -/

namespace Dimensional.Scope

/-- Scopes over tables that can be reached, in which quantities over them are bound. A quantity that
is bound as it is counts as a constant only if its value is known, as that of a literal is: numeric
expressions take the value of a constant, but quantities leave out a value that is not known. -/
abbrev Declared : Scope → Prop :=
  Arises Table.Reached fun table quantity =>
    quantity.Built table ∧ (quantity.isConstant → quantity.hasValue)

variable {scope : Scope}

theorem Declared.built (declared : scope.Declared) : scope.Built :=
  declared.mono id And.left

/-- A declared quantity is a constant only where its value is given. -/
theorem hasValue_of_declared {declaration : QuantityDeclaration} {bound : Quantity}
    (h : scope.declared declaration = .ok bound) (constant : bound.isConstant = true) :
    bound.hasValue = true := by
  obtain ⟨described, found, rfl⟩ := Except.map_eq_ok.mp h
  obtain ⟨_, _, _, _, rfl⟩ := quantity_eq_ok.mp found
  dsimp only at constant ⊢
  split
  · rfl
  · rename_i none
    rw [none] at constant
    cases constant

/-- The values of all constants are known. -/
theorem Declared.hasValue (declared : scope.Declared) :
    ∀ entry ∈ scope.bindings, entry.2.isConstant = true → entry.2.hasValue = true :=
  declared.forall_bindings (p := fun quantity => quantity.isConstant = true → quantity.hasValue = true)
    (fun known => known) (fun _ _ => rfl) hasValue_of_declared And.right

/-- No constant without dimensions is a vector. -/
def HasScalarConstants (scope : Scope) : Prop :=
  ∀ entry ∈ scope.bindings, entry.2.isConstant = true → entry.2.isDimensionless = true →
    entry.2.isVector = false

instance (scope : Scope) : Decidable scope.HasScalarConstants :=
  inferInstanceAs (Decidable (∀ _ ∈ _, _ → _ → _))

/-- Where no constant without dimensions is a vector, each of them is nothing but a number. -/
theorem Declared.isPlain (declared : scope.Declared)
    (scalar : scope.HasScalarConstants) : scope.vocabulary.IsPlain := by
  intro name bound resolved constant dimensionless
  have sound := declared.built.sound
  have isOver := sound.vocabulary_isOver.quantity name bound resolved
  obtain ⟨above, below⟩ := (Quantity.isDimensionless_iff sound.numbered isOver).mp dimensionless
  obtain ⟨onlyAbove, onlyBelow⟩ := Bool.and_eq_true_iff.mp dimensionless
  unfold Vocabulary.resolve? at resolved
  split at resolved
  · rename_i looked
    cases resolved
    have member := mem_of_get? looked
    have known := declared.hasValue _ member constant
    have oriented := scalar _ member constant dimensionless
    exact .of_fields (Monomial.eq_one above (beq_iff_eq.mp onlyAbove))
      (Monomial.eq_one below (beq_iff_eq.mp onlyBelow)) oriented constant known
  · obtain ⟨dimension, _, rfl⟩ := Option.map_eq_some_iff.mp resolved
    cases constant

open Dimensional.Parser

/-- A source that is read as a number, and in which nothing that is zero is raised to a power, is
read as a quantity without dimensions and parameters that is a known constant of the same value. -/
theorem Declared.reads_number_as_quantity (declared : scope.Declared)
    (scalar : scope.HasScalarConstants) {source : String} {tokens : List Token} {tree : Expression}
    (scanned : Scanner.tokenize source = .ok tokens)
    (h : read (.standard scope.vocabulary) .numeric source = .ok tree)
    (derivation : Derivation (.expression .numeric)) (same : derivation.tokens = beforeEnd tokens)
    (nonzero : ∀ power ∈ derivation.powers scope.vocabulary, (power.1 == 0.0) = false) :
    ∃ other quantity, read (.standard scope.vocabulary) .quantity source = .ok other ∧
      other.root.quantity? = some quantity ∧ quantity.isDimensionless = true ∧
      quantity.isConstant = true ∧ quantity.isVector = false ∧ quantity.hasValue = true ∧
      other.parameters = [] ∧ other.root.value = tree.root.value := by
  rw [read_eq_readTokens scanned] at h ⊢
  obtain ⟨other, quantity, read, none, worth, identifier?, rfl⟩ :=
    readTokens_asQuantity (declared.isPlain scalar) h derivation same nonzero
  refine ⟨other, _, read, congrArg Worth.quantity? worth, rfl, rfl, rfl, rfl, none, ?_⟩
  rw [Node.value, worth]
  rfl

/-- The square of a named constant in parentheses is the same number in both grammars. -/
theorem exists_quantity_of_number :
    ∃ tree other, read (.standard si.vocabulary) .numeric "2*(Pi - 1)**2" = .ok tree ∧
      read (.standard si.vocabulary) .quantity "2*(Pi - 1)**2" = .ok other ∧
      other.parameters = [] ∧ other.root.value = tree.root.value := by
  let sign (kind : Token.Kind) (text : String) (location : Location) : Terminal kind :=
    ⟨⟨kind, text, location⟩, rfl⟩
  let inner : Derivation (.expression .numeric) :=
    .expression
      (.term (.factor (.name (sign .identifier "Pi" ⟨3, 1, 4⟩))) .lastFactor)
      (.sum .minus (sign .minus "-" ⟨6, 1, 7⟩)
        (.term (.factor (.literal (sign .number "1" ⟨8, 1, 9⟩))) .lastFactor) .lastTerm)
  let derivation : Derivation (.expression .numeric) :=
    .expression
      (.term (.factor (.literal (sign .number "2" .start)))
        (.product .times (sign .times "*" ⟨1, 1, 2⟩)
          (.raised
            (.parenthesized (sign .openParen "(" ⟨2, 1, 3⟩) inner (sign .closeParen ")" ⟨9, 1, 10⟩))
            (sign .power "**" ⟨10, 1, 11⟩) (.integer (sign .number "2" ⟨12, 1, 13⟩)))
          .lastFactor))
      .lastTerm
  let tokens := derivation.tokens ++ [.eof ⟨13, 1, 14⟩]
  have scanned : Scanner.tokenize "2*(Pi - 1)**2" = .ok tokens :=
    Except.toOption_eq_some.mp (by decide +kernel)
  have same : derivation.tokens = beforeEnd tokens := by decide +kernel
  have readable : Readable derivation.tokens := by decide +kernel
  have nonzero : ∀ power ∈ derivation.powers si.vocabulary, (power.1 == 0.0) = false := by
    decide +kernel
  have defined : derivation.IsDefined si.vocabulary :=
    (isDefined_iff derivation readable).mpr ⟨by decide +kernel, by decide +kernel⟩
  obtain ⟨tree, numeric⟩ :=
    readTokens_of_defined derivation same (admits_standard.mpr (by decide +kernel)) defined
  have h : read (.standard si.vocabulary) .numeric "2*(Pi - 1)**2" = .ok tree :=
    (read_eq_readTokens scanned).trans numeric
  obtain ⟨other, _, read, _, _, _, _, _, none, value⟩ :=
    Declared.reads_number_as_quantity .si (by decide +kernel) scanned h derivation same nonzero
  exact ⟨tree, other, h, read, none, value⟩

end Dimensional.Scope
