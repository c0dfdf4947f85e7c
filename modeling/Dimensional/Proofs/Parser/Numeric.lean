import Dimensional.Proofs.Derivation.Evaluates
import Dimensional.Proofs.Judgement.Number
import Dimensional.Proofs.Parser.Whole

/-! Numeric expressions are read exactly where they stand for a number and are not nested too
deeply, and they are worth that number. -/

namespace Dimensional

open Dimensional.Parser

variable {setting : Setting}

/-- Signs of multiplication are left out in quantities only. -/
theorem Derivation.permitted_of_numeric (derivation : Derivation category)
    (numeric : category.grammar = .numeric) : derivation.Permitted vocabulary := by
  induction derivation with
  | expression _ _ ihFirst ihRest | term _ _ ihFirst ihRest | negated _ _ _ ihFirst ihRest =>
    exact ⟨ihFirst numeric, ihRest numeric⟩
  | sum _ _ _ _ ihNext ihRest | product _ _ _ _ ihNext ihRest =>
    exact ⟨ihNext numeric, ihRest numeric⟩
  | silent => cases numeric
  | factor _ ih | parenthesized _ _ _ ih | grouped _ _ _ ih => exact ih numeric
  | raised _ _ _ ihBase ihExponent => exact ⟨ihBase numeric, ihExponent rfl⟩
  | vector => cases numeric
  | lastTerm | lastFactor | name | literal | integer | negativeInteger => trivial

theorem admits_of_allowNesting {depth : Nat} (allowed : allowNesting setting.limit? depth = .ok ()) :
    setting.Admits (depth + 1) := by
  intro limit limited
  unfold allowNesting at allowed
  rw [Option.mem_def.mp limited] at allowed
  by_contra more
  have deeper : limit < depth + 1 := Nat.lt_of_not_le more
  simp [Option.filter, deeper] at allowed

theorem Parser.Setting.Admits.both {deep deeper depth : Nat} (left : setting.Admits (depth + deep))
    (right : setting.Admits (depth + deeper)) : setting.Admits (depth + max deep deeper) := by
  intro limit limited
  have := left limit limited
  have := right limit limited
  omega

namespace Derivation.Evaluates

/-- What is evaluated is not nested too deeply. -/
theorem admits {derivation : Derivation category} {carried : category.Carried} {depth : Nat}
    {numbering after : Numbering} {value : category.Evaluated}
    (h : derivation.Evaluates setting carried depth numbering value after)
    (admitted : setting.Admits depth) : setting.Admits (depth + derivation.nesting) := by
  induction h with
  | expression allowed _ _ ihFirst ihRest =>
    have opened := admits_of_allowNesting allowed
    have inner := (ihFirst opened).both (ihRest opened)
    rw [nesting, Nat.add_comm (max _ _), ← Nat.add_assoc]
    exact inner
  | sum _ _ _ ihNext ihRest | product _ _ _ ihNext ihRest | silent _ _ _ ihNext ihRest
  | term _ _ _ ihNext ihRest | negated _ _ _ ihNext ihRest =>
    exact (ihNext admitted).both (ihRest admitted)
  | raised _ _ _ ihLeft ihRight | vector _ _ _ ihLeft ihRight =>
    exact (ihLeft admitted).both (ihRight admitted)
  | factor _ ih | parenthesized _ ih | grouped _ ih => exact ih admitted
  | lastTerm | lastFactor | name | literal | integer | negativeInteger => exact admitted

theorem value_of_literalNode {token : Token} {leaf : Expression}
    (found : literalNode token = .ok leaf) :
    Number.read? token.text = some leaf.root.value := by
  unfold literalNode at found
  split at found
  · cases found
  · rename_i value read
    cases found
    exact read

theorem worth_of_literalNode {token : Token} {leaf : Expression}
    (found : literalNode token = .ok leaf) :
    leaf.root.worth = .quantity (.constant leaf.root.value) := by
  unfold literalNode at found
  split at found
  · cases found
  · cases found
    rfl

/-- A name in a numeric expression is a constant without dimensions. -/
theorem constant_of_namedNode {token : Token} {leaf : Expression} {numbering after : Numbering}
    (named : namedNode setting.vocabulary .numeric token numbering = .ok (leaf, after)) :
    ∃ quantity ∈ setting.vocabulary.resolve? token.text,
      (quantity.isConstant && quantity.isDimensionless) = true ∧
        leaf.root.worth = .quantity quantity := by
  obtain ⟨quantity, resolved, plain, same⟩ := namedNode_eq_ok named
  refine ⟨quantity, resolved, Bool.and_eq_true_iff.mpr (plain rfl), ?_⟩
  split at same
  · cases same
    rfl
  · cases same
    rfl

/-- It means the same in quantities. -/
theorem namedNode_asQuantity {token : Token} {numbering : Numbering} {read : Expression × Numbering}
    (named : namedNode setting.vocabulary .numeric token numbering = .ok read) :
    namedNode setting.vocabulary .quantity token numbering = .ok read := by
  obtain ⟨leaf, after⟩ := read
  obtain ⟨quantity, resolved, _, same⟩ := namedNode_eq_ok named
  unfold namedNode
  rw [Option.mem_def.mp resolved, same]
  dsimp only
  split <;> rfl

/-- What is evaluated in the numeric grammar comes to a number. -/
theorem comesTo {derivation : Derivation category} {carried : category.Carried} {depth : Nat}
    {numbering after : Numbering} {value : category.Evaluated}
    (h : derivation.Evaluates setting carried depth numbering value after)
    (numeric : category.grammar = .numeric) (total : category.CarriedNumber)
    (begins : category.BeginsAt carried total) :
    ∃ number, derivation.fold? setting.vocabulary total = some number ∧
      category.ComesTo value number := by
  induction h with
  | expression allowed _ _ ihFirst ihRest =>
    obtain ⟨first, ofFirst, head⟩ := ihFirst numeric () trivial
    obtain ⟨number, ofRest, comes⟩ := ihRest numeric first head
    exact ⟨number, Option.bind_eq_some_iff.mpr ⟨first, ofFirst, ofRest⟩, comes⟩
  | lastTerm | lastFactor => exact ⟨total, rfl, begins⟩
  | sum _ added _ ihNext ihRest =>
    obtain ⟨next, ofNext, operand⟩ := ihNext numeric () trivial
    change _ = Worth.number _ at operand
    change _ = Worth.number _ at begins
    rw [begins, operand] at added
    cases added
    obtain ⟨number, ofRest, comes⟩ := ihRest numeric _ rfl
    rw [AddOp.apply_eq_operation] at ofRest
    exact ⟨number, Option.bind_eq_some_iff.mpr ⟨next, ofNext, ofRest⟩, comes⟩
  | term _ begun _ ihFirst ihRest | negated _ begun _ ihFirst ihRest =>
    cases numeric
    obtain ⟨first, ofFirst, head⟩ := ihFirst rfl () trivial
    change _ = Worth.number _ at head
    rw [head] at begun
    cases begun
    obtain ⟨number, ofRest, comes⟩ := ihRest rfl _ rfl
    exact ⟨number, Option.bind_eq_some_iff.mpr ⟨first, ofFirst, ofRest⟩, congrArg Chain.finish comes⟩
  | product _ applied _ ihNext ihRest =>
    cases numeric
    obtain ⟨next, ofNext, operand⟩ := ihNext rfl () trivial
    change _ = Worth.number _ at operand
    change _ = Chain.number _ at begins
    rw [begins, operand] at applied
    cases applied
    obtain ⟨number, ofRest, comes⟩ := ihRest rfl _ rfl
    rw [MulOp.apply_eq_skippingZero] at ofRest
    exact ⟨number, Option.bind_eq_some_iff.mpr ⟨next, ofNext, ofRest⟩, comes⟩
  | silent => cases numeric
  | factor _ ih =>
    cases numeric
    obtain ⟨number, ofBase, atom⟩ := ih rfl () trivial
    exact ⟨number, ofBase, congrArg Worth.number atom⟩
  | @raised _ _ _ _ _ _ _ _ _ atom power _ _ _ operated ihBase ihExponent =>
    cases numeric
    obtain ⟨base, ofBase, worth⟩ := ihBase rfl () trivial
    obtain ⟨times, ofExponent, exponent⟩ := ihExponent rfl () trivial
    have ofAtom : Worth.ofAtom .numeric atom.root.worth = .number base :=
      congrArg Worth.number worth
    have ofPower : power.root.value = times := congrArg Worth.value exponent
    rw [ofAtom, ofPower, Worth.power_number] at operated
    split at operated
    · cases operated
    · rename_i defined
      cases operated
      exact ⟨_, Option.bind_eq_some_iff.mpr ⟨base, ofBase,
        Option.bind_eq_some_iff.mpr ⟨times, ofExponent, if_neg defined⟩⟩, rfl⟩
  | name named =>
    cases numeric
    obtain ⟨quantity, resolved, constant, worth⟩ := constant_of_namedNode named
    exact ⟨_, Option.bind_eq_some_iff.mpr ⟨quantity, resolved, if_pos constant⟩,
      congrArg Worth.value worth⟩
  | literal found => exact ⟨_, value_of_literalNode found, rfl⟩
  | parenthesized _ ih =>
    obtain ⟨number, ofInner, inner⟩ := ih numeric () trivial
    exact ⟨number, ofInner, congrArg Worth.value inner⟩
  | vector => cases numeric
  | integer found | negativeInteger found =>
    exact ⟨_, Option.bind_eq_some_iff.mpr ⟨_, value_of_literalNode found, rfl⟩, rfl⟩
  | grouped _ ih => exact ih rfl () trivial

end Derivation.Evaluates

namespace Parser

variable {vocabulary : Vocabulary} {tokens : List Token} {tree : Expression}

theorem isDefined_iff (derivation : Derivation category) (readable : Readable derivation.tokens) :
    derivation.IsDefined vocabulary ↔ vocabulary.NamesConstants derivation.tokens ∧
      ∀ power ∈ derivation.powers vocabulary, raisesZero power = false := by
  constructor
  · rintro ⟨meant, defined⟩
    exact ⟨fun token member => (meant token member).2, defined⟩
  · rintro ⟨constants, defined⟩
    exact ⟨fun token member => ⟨readable token member, constants token member⟩, defined⟩

theorem admits_standard {depth : Nat} :
    (Setting.standard vocabulary).Admits depth ↔ depth ≤ nestingLimit := by
  simp [Setting.Admits, Setting.standard]

/-- Whatever numeric tokens are derived from, they are read as the number that it stands for. -/
theorem defined_of_readTokens (h : readTokens setting .numeric tokens = .ok tree)
    (derivation : Derivation (.expression .numeric)) (same : derivation.tokens = beforeEnd tokens)
    (admitted : setting.Admits 0) :
    setting.Admits derivation.nesting ∧ derivation.IsDefined setting.vocabulary ∧
      tree.root.worth = .number (derivation.number setting.vocabulary ()) := by
  obtain ⟨numbering, evaluated⟩ :=
    evaluates_of_readTokens derivation (derivation.permitted_of_numeric rfl) same h
  obtain ⟨number, folded, comes⟩ := evaluated.comesTo rfl () trivial
  obtain ⟨defined, rfl⟩ := (derivation.fold?_eq_some_iff rfl).mp folded
  have admits := evaluated.admits admitted
  rw [Nat.zero_add] at admits
  exact ⟨admits, defined, comes⟩

/-- What stands for a number is read. -/
theorem readTokens_of_defined (derivation : Derivation (.expression .numeric))
    (same : derivation.tokens = beforeEnd tokens) (admits : setting.Admits derivation.nesting)
    (defined : derivation.IsDefined setting.vocabulary) :
    ∃ tree, readTokens setting .numeric tokens = .ok tree := by
  have folded : derivation.fold? setting.vocabulary () =
      some (derivation.number setting.vocabulary ()) :=
    (derivation.fold?_eq_some_iff rfl).mpr ⟨defined, rfl⟩
  obtain ⟨tree, after, evaluated, _⟩ := derivation.folds rfl () () _ 0 .empty trivial
    (by rwa [Nat.zero_add]) folded
  rw [readTokens_eq_evaluate derivation (derivation.permitted_of_numeric rfl) same, evaluated]
  exact ⟨tree, rfl⟩

/-- Scanned tokens are read as a number exactly where they are derived in the numeric grammar, no
more expressions are nested than the limit, all names are constants without dimensions and zero is
not raised to zero. What is read is worth the number that the derivation stands for. -/
theorem readTokens_numeric_exact (vocabulary : Vocabulary) {tokens : List Token}
    (scanned : ∀ token ∈ tokens, token.IsScanned) :
    ((∃ tree, readTokens (.standard vocabulary) .numeric tokens = .ok tree) ↔
      ∃ derivation : Derivation (.expression .numeric), derivation.tokens = beforeEnd tokens ∧
        derivation.nesting ≤ nestingLimit ∧ vocabulary.NamesConstants derivation.tokens ∧
        ∀ power ∈ derivation.powers vocabulary, raisesZero power = false) ∧
    ∀ tree, readTokens (.standard vocabulary) .numeric tokens = .ok tree →
      ∀ derivation : Derivation (.expression .numeric), derivation.tokens = beforeEnd tokens →
        tree.root.value = derivation.number vocabulary () ∧
          derivation.trees = [tree.map Node.mark] := by
  have readable := readable_beforeEnd scanned
  have shallow : (Setting.standard vocabulary).Admits 0 := admits_standard.mpr (Nat.zero_le _)
  refine ⟨⟨?_, ?_⟩, ?_⟩
  · rintro ⟨tree, h⟩
    obtain ⟨derivation, _, same⟩ := readTokens_recognized h
    obtain ⟨admits, defined, _⟩ := defined_of_readTokens h derivation same shallow
    obtain ⟨constants, powers⟩ := (isDefined_iff derivation (same ▸ readable)).mp defined
    exact ⟨derivation, same, admits_standard.mp admits, constants, powers⟩
  · rintro ⟨derivation, same, nested, constants, powers⟩
    exact readTokens_of_defined derivation same (admits_standard.mpr nested)
      ((isDefined_iff derivation (same ▸ readable)).mpr ⟨constants, powers⟩)
  · intro tree h derivation same
    obtain ⟨_, _, worth⟩ := defined_of_readTokens h derivation same shallow
    exact ⟨congrArg Worth.value worth,
      marks_of_readTokens derivation (derivation.permitted_of_numeric rfl) same h⟩

/-- A power binds tighter than the minus in front of it, which binds tighter than products, and they
than sums. Both go from left to right and the division by zero is passed over. -/
theorem exists_number_of_negated_power :
    ∃ tokens tree, Scanner.tokenize "-Pi**0*6/0/4-1+3" = .ok tokens ∧
      readTokens (.standard Scope.si.vocabulary) .numeric tokens = .ok tree ∧
      tree.root.value = 0.5 := by
  let sign (kind : Token.Kind) (text : String) (position : Nat) : Terminal kind :=
    ⟨⟨kind, text, ⟨position, 1, position + 1⟩⟩, rfl⟩
  let digit (text : String) (position : Nat) : Derivation (.factor .numeric true) :=
    .factor (.literal (sign .number text position))
  let derivation : Derivation (.expression .numeric) :=
    .expression
      (.negated (sign .minus "-" 0)
        (.raised (.name (sign .identifier "Pi" 1)) (sign .power "**" 3)
          (.integer (sign .number "0" 5)))
        (.product .times (sign .times "*" 6) (digit "6" 7)
          (.product .over (sign .over "/" 8) (digit "0" 9)
            (.product .over (sign .over "/" 10) (digit "4" 11) .lastFactor))))
      (.sum .minus (sign .minus "-" 12) (.term (digit "1" 13) .lastFactor)
        (.sum .plus (sign .plus "+" 14) (.term (digit "3" 15) .lastFactor) .lastTerm))
  let tokens := derivation.tokens ++ [.eof ⟨16, 1, 17⟩]
  have scanned : Scanner.tokenize "-Pi**0*6/0/4-1+3" = .ok tokens :=
    Except.toOption_eq_some.mp (by decide +kernel)
  have decided := readTokens_numeric_exact Scope.si.vocabulary
    (Scanner.isScanned_of_tokenize scanned)
  have same : derivation.tokens = beforeEnd tokens := by decide +kernel
  obtain ⟨tree, read⟩ := decided.1.mpr
    ⟨derivation, same, by decide +kernel, by decide +kernel, by decide +kernel⟩
  refine ⟨tokens, tree, scanned, read, ?_⟩
  rw [(decided.2 tree read derivation same).1]
  -- Powers to zero are 1 whatever the base, so that the kernel computes the number.
  decide +kernel

end Parser

end Dimensional
