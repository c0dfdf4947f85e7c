import Dimensional.Proofs.Judgement.Numeric

/-! The number that a numeric part stands for, told from the conditions under which it has one. -/

namespace Dimensional

/-- Whether a name stands for a constant without dimensions. -/
def Vocabulary.NamesConstant (vocabulary : Vocabulary) (name : String) : Prop :=
  ∃ quantity ∈ vocabulary.resolve? name, quantity.isConstant ∧ quantity.isDimensionless

/-- All names among some tokens stand for constants without dimensions. -/
def Vocabulary.NamesConstants (vocabulary : Vocabulary) (tokens : List Token) : Prop :=
  ∀ token ∈ tokens, token.kind = .identifier → vocabulary.NamesConstant token.text

instance (vocabulary : Vocabulary) (name : String) : Decidable (vocabulary.NamesConstant name) :=
  inferInstanceAs (Decidable (∃ quantity ∈ vocabulary.resolve? name, _ ∧ _))

instance (vocabulary : Vocabulary) (tokens : List Token) :
    Decidable (vocabulary.NamesConstants tokens) :=
  inferInstanceAs (Decidable (∀ _ ∈ _, _ → _))

/-- Zero to the zero is no number. -/
def raisesZero (power : Float × Float) : Bool :=
  power.1 == 0.0 && power.2 == 0.0

namespace Derivation

variable (vocabulary : Vocabulary)

/-- The number that the tokens stand for, from left to right. Operators between factors pass over
zeros; a name without meaning counts as zero. -/
@[simp] def number : Derivation category → category.CarriedNumber → Float
  | expression first rest, _ => rest.number (first.number ())
  | lastTerm, total => total
  | sum op _ next rest, total => rest.number (op.operation total (next.number ()))
  | term first rest, _ => rest.number (1.0 * first.number ())
  | negated _ first rest, _ => rest.number (-1.0 * first.number ())
  | lastFactor, total => total
  | product op _ next rest, total =>
    rest.number (skippingZero op.operation total (next.number ()))
  | silent next rest, total => rest.number (skippingZero (· * ·) total (next.number ()))
  | factor base, _ => base.number ()
  | raised base _ exponent, _ => Number.power (base.number ()) (exponent.number ())
  | name token, _ => ((vocabulary.resolve? token.val.text).map Quantity.value).getD 0.0
  | literal token, _ => (Number.read? token.val.text).getD 0.0
  | @parenthesized grammar _ inner _, _ => @number (.expression grammar) inner ()
  | vector _ _ _ _ _ _ _, _ => 0.0
  | integer digits, _ => 1.0 * (Number.read? digits.val.text).getD 0.0
  | negativeInteger _ digits, _ => -1.0 * (Number.read? digits.val.text).getD 0.0
  | grouped _ inner _, _ => @number (.expression .numeric) inner ()

/-- The base and the exponent of every power, also of those in exponents. -/
@[simp] def powers : Derivation category → List (Float × Float)
  | expression first rest => first.powers ++ rest.powers
  | sum _ _ next rest => next.powers ++ rest.powers
  | term first rest => first.powers ++ rest.powers
  | negated _ first rest => first.powers ++ rest.powers
  | product _ _ next rest => next.powers ++ rest.powers
  | silent next rest => next.powers ++ rest.powers
  | factor base => base.powers
  | raised base _ exponent =>
    base.powers ++ exponent.powers ++
      [(base.number vocabulary (), exponent.number vocabulary ())]
  | parenthesized _ inner _ => inner.powers
  | vector _ _ _ left _ right _ => left.powers ++ right.powers
  | grouped _ inner _ => inner.powers
  | lastTerm | lastFactor | name _ | literal _ | integer _ | negativeInteger _ _ => []

/-- Whether a token can stand in a number: literals can be read, and names are constants. -/
def MeansNumber (token : Token) : Prop :=
  (token.kind = .number → (Number.read? token.text).isSome) ∧
    (token.kind = .identifier → vocabulary.NamesConstant token.text)

/-- Signs can stand in numbers. -/
theorem meansNumber_of_kind {token : Token} {kind : Token.Kind} (same : token.kind = kind)
    (notNumber : kind ≠ .number) (notName : kind ≠ .identifier) :
    MeansNumber vocabulary token :=
  ⟨fun h => absurd (same.symm.trans h) notNumber, fun h => absurd (same.symm.trans h) notName⟩

theorem meansNumber_addOp {op : AddOp} (sign : Terminal op.kind) :
    MeansNumber vocabulary sign.val := by
  cases op <;> exact meansNumber_of_kind vocabulary sign.property nofun nofun

theorem meansNumber_mulOp {op : MulOp} (sign : Terminal op.kind) :
    MeansNumber vocabulary sign.val := by
  cases op <;> exact meansNumber_of_kind vocabulary sign.property nofun nofun

/-- All tokens can stand in a number, and zero is not raised to zero. -/
def IsDefined (derivation : Derivation category) : Prop :=
  (∀ token ∈ derivation.tokens, MeansNumber vocabulary token) ∧
    ∀ power ∈ derivation.powers vocabulary, raisesZero power = false

variable {vocabulary}

/-- What is made of two parts and of signs is defined when both parts are. -/
theorem isDefined_of_parts {whole : Derivation category} {left : Derivation first}
    {right : Derivation second}
    (tokens : (∀ token ∈ whole.tokens, MeansNumber vocabulary token) ↔
      (∀ token ∈ left.tokens, MeansNumber vocabulary token) ∧
        ∀ token ∈ right.tokens, MeansNumber vocabulary token)
    (powers : whole.powers vocabulary = left.powers vocabulary ++ right.powers vocabulary) :
    whole.IsDefined vocabulary ↔ left.IsDefined vocabulary ∧ right.IsDefined vocabulary := by
  unfold IsDefined
  rw [tokens, powers, List.forall_mem_append]
  exact and_and_and_comm

/-- Numeric parts come to a number where they are defined, and then to the one that they stand for. -/
theorem fold?_eq_some_iff (derivation : Derivation category)
    (numeric : category.grammar = .numeric) {total : category.CarriedNumber} {value : Float} :
    derivation.fold? vocabulary total = some value ↔
      derivation.IsDefined vocabulary ∧ derivation.number vocabulary total = value := by
  induction derivation generalizing value with
  | expression first rest ihFirst ihRest =>
    have parts : (expression first rest).IsDefined vocabulary ↔
        first.IsDefined vocabulary ∧ rest.IsDefined vocabulary :=
      isDefined_of_parts List.forall_mem_append rfl
    simp [fold?, Option.bind_eq_some_iff, ihFirst numeric, ihRest numeric, parts, and_assoc]
  | lastTerm | lastFactor => simp [fold?, IsDefined]
  | sum op sign next rest ihNext ihRest =>
    have parts : (sum op sign next rest).IsDefined vocabulary ↔
        next.IsDefined vocabulary ∧ rest.IsDefined vocabulary :=
      isDefined_of_parts (by simp [or_imp, forall_and, meansNumber_addOp vocabulary sign]) rfl
    simp [fold?, Option.bind_eq_some_iff, ihNext numeric, ihRest numeric, parts, and_assoc]
  | term first rest ihFirst ihRest =>
    have parts : (term first rest).IsDefined vocabulary ↔
        first.IsDefined vocabulary ∧ rest.IsDefined vocabulary :=
      isDefined_of_parts List.forall_mem_append rfl
    simp [fold?, Option.bind_eq_some_iff, ihFirst numeric, ihRest numeric, parts, and_assoc]
  | negated minus first rest ihFirst ihRest =>
    have sign := meansNumber_of_kind vocabulary minus.property nofun nofun
    have parts : (negated minus first rest).IsDefined vocabulary ↔
        first.IsDefined vocabulary ∧ rest.IsDefined vocabulary :=
      isDefined_of_parts (by simp [or_imp, forall_and, sign]) rfl
    simp [fold?, Option.bind_eq_some_iff, ihFirst numeric, ihRest numeric, parts, and_assoc]
  | @product _ _ afterLiteral op sign next rest ihNext ihRest =>
    have parts : (product op sign next rest :
        Derivation (.productRest _ afterLiteral)).IsDefined vocabulary ↔
        next.IsDefined vocabulary ∧ rest.IsDefined vocabulary :=
      isDefined_of_parts (by simp [or_imp, forall_and, meansNumber_mulOp vocabulary sign]) rfl
    simp [fold?, Option.bind_eq_some_iff, ihNext numeric, ihRest numeric, parts, and_assoc]
  | silent => cases numeric
  | factor base ih => simp [fold?, ih numeric, IsDefined]
  | raised base sign exponent ihBase ihExponent =>
    have meant := meansNumber_of_kind vocabulary sign.property nofun nofun
    have parts : (raised base sign exponent).IsDefined vocabulary ↔
        base.IsDefined vocabulary ∧ exponent.IsDefined vocabulary ∧
          raisesZero (base.number vocabulary (), exponent.number vocabulary ()) = false := by
      simp only [IsDefined, tokens, powers, List.forall_mem_append, List.forall_mem_cons, meant,
        true_and]
      tauto
    simp [fold?, Option.bind_eq_some_iff, ihBase numeric, ihExponent rfl, parts, and_assoc,
      raisesZero]
  | name token =>
    have isName : token.val.kind = .identifier := token.property
    cases found : vocabulary.resolve? token.val.text with
    | none => simp [fold?, IsDefined, MeansNumber, Vocabulary.NamesConstant, isName, found]
    | some quantity =>
      simp [fold?, IsDefined, MeansNumber, Vocabulary.NamesConstant, isName, found]
  | literal token =>
    have isNumber : token.val.kind = .number := token.property
    cases found : Number.read? token.val.text with
    | none => simp [fold?, IsDefined, MeansNumber, isNumber, found]
    | some value => simp [fold?, IsDefined, MeansNumber, isNumber, found]
  | parenthesized opening inner closing ih | grouped opening inner closing ih =>
    have signs := And.intro (meansNumber_of_kind vocabulary opening.property nofun nofun)
      (meansNumber_of_kind vocabulary closing.property nofun nofun)
    simp [fold?, ih numeric, IsDefined, or_imp, forall_and, signs]
  | vector => cases numeric
  | integer number =>
    have isNumber : number.val.kind = .number := number.property
    cases found : Number.read? number.val.text with
    | none => simp [fold?, IsDefined, MeansNumber, isNumber, found]
    | some value => simp [fold?, IsDefined, MeansNumber, isNumber, found]
  | negativeInteger minus number =>
    have isNumber : number.val.kind = .number := number.property
    cases found : Number.read? number.val.text with
    | none => simp [fold?, IsDefined, MeansNumber, isNumber, found, minus.property]
    | some value => simp [fold?, IsDefined, MeansNumber, isNumber, found, minus.property]

end Derivation

end Dimensional
