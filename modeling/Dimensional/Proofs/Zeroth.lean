import Dimensional.Proofs.Known
import Dimensional.Proofs.Parser.Endings
import Dimensional.Proofs.Parser.Faults
import Dimensional.Proofs.Parser.Nesting

/-! What is raised to zero. A zero that is a number or a constant quantity is refused there, at the
exponent; all else comes to one, quantities that are known to be zero included. -/

namespace Dimensional

theorem Quantity.power_failsOnly_of_nonzero {base : Quantity} {exponent : Float}
    (nonzero : (exponent == 0.0) = false) :
    (base.power exponent).FailsOnly (· ≠ .zeroToTheZero) := by
  unfold power
  rw [if_neg (Bool.eq_false_iff.mp nonzero)]
  dsimp only
  split
  · split
    · refine .map fun error failed => ?_
      rw [raisedDimensions_failsOnly error failed]
      exact nofun
    · split
      · exact .error AlgebraError.overflow nofun
      · exact .error (AlgebraError.nonIntegerExponent exponent) nofun
  · exact .ok

namespace Worth

/-- The zeros that are not raised to zero: numbers and constant quantities. -/
def isConstantZero (base : Worth) : Bool :=
  match base.quantity? with
  | none => base.value == 0.0
  | some quantity => quantity.isConstant && quantity.value == 0.0

/-- The one that a worth comes to when it is raised to zero. A quantity keeps its name. -/
def unit (base : Worth) : Worth :=
  match base.quantity? with
  | none => .number 1.0
  | some quantity => .quantity { Quantity.constant 1.0 with identifier? := quantity.identifier? }

variable {base : Worth} {exponent : Float}

theorem power_zeroth (zeroth : (exponent == 0.0) = true) :
    base.power exponent =
      if base.isConstantZero then .error .zeroToTheZero else .ok base.unit := by
  unfold power isConstantZero unit
  cases base.quantity? with
  | none => cases isZero : base.value == 0.0 <;> simp [zeroth, Number.power_zero zeroth]
  | some quantity =>
    cases isZero : quantity.isConstant && quantity.value == 0.0 <;>
      simp only [Quantity.power, isZero, if_pos zeroth] <;> rfl

theorem power_eq_zeroToTheZero_iff :
    base.power exponent = .error .zeroToTheZero ↔
      base.isConstantZero = true ∧ (exponent == 0.0) = true := by
  cases zeroth : exponent == 0.0 with
  | true =>
    rw [power_zeroth zeroth]
    split <;> simp [*]
  | false =>
    simp only [Bool.false_eq_true, and_false, iff_false]
    intro refused
    unfold power at refused
    split at refused
    · simp [zeroth] at refused
    · have failsOnly {quantity : Quantity} :
          ((quantity.power exponent).map Worth.quantity).FailsOnly (· ≠ .zeroToTheZero) :=
        .map (Quantity.power_failsOnly_of_nonzero zeroth)
      exact failsOnly _ refused rfl

end Worth

open Dimensional.Parser

/-- A factor with an exponent is worth the power of its base. -/
def Expression.IsRaised (part : Expression) : Prop :=
  part.root.shape = .factor →
    ∀ atom sign exponent : Expression, part.children = [atom, sign, exponent] → ∃ grammar,
      (Worth.ofAtom grammar atom.root.worth).power exponent.value = .ok part.root.worth

section Raised

variable {setting : Setting} {vocabulary : Vocabulary} {grammar : Grammar} {token : Token}
  {numbering after : Numbering} {root : Node} {tree part : Expression} {trees : List Expression}

theorem Tree.AllParts.other (below : AllParts Expression.IsRaised trees)
    (other : (root.shape == .factor) = false) : AllParts Expression.IsRaised [.node root trees] :=
  below.node fun shape => absurd (beq_iff_eq.mpr shape) (Bool.eq_false_iff.mp other)

theorem allParts_literalNode (h : literalNode token = .ok tree) :
    Tree.AllParts Expression.IsRaised [tree] := by
  unfold literalNode at h
  split at h
  · cases h
  · cases h
    exact Tree.allParts_nil.other rfl

theorem allParts_namedNode (h : namedNode vocabulary grammar token numbering = .ok (tree, after)) :
    Tree.AllParts Expression.IsRaised [tree] := by
  obtain ⟨quantity, _, _, same⟩ := namedNode_eq_ok h
  split at same
  all_goals
    obtain rfl := congrArg Prod.fst same
    exact Tree.allParts_nil.other rfl

theorem Derivation.Evaluates.allParts {derivation : Derivation category}
    {carried : category.Carried} {depth : Nat} {value : category.Evaluated}
    (evaluates : derivation.Evaluates setting carried depth numbering value after) :
    Tree.AllParts Expression.IsRaised (category.trees value) := by
  induction evaluates with
  | expression _ _ _ ihFirst ihRest | term _ _ _ ihFirst ihRest =>
    exact (ihFirst.cons ihRest).other rfl
  | negated _ _ _ ihFirst ihRest =>
    exact ((Tree.allParts_nil.other rfl).cons (ihFirst.cons ihRest)).other rfl
  | lastTerm | lastFactor => exact Tree.allParts_nil
  | sum _ _ _ ihNext ihRest | product _ _ _ ihNext ihRest | silent _ _ _ ihNext ihRest =>
    exact (Tree.allParts_nil.other rfl).cons (ihNext.cons ihRest)
  | factor _ ih =>
    exact ih.node fun _ _ _ _ raised => by cases raised
  | @raised grammar _ _ _ _ _ _ _ _ _ _ _ _ _ operated ihBase ihExponent =>
    refine (ihBase.cons ((Tree.allParts_nil.other rfl).cons ihExponent)).node ?_
    rintro _ _ _ _ ⟨⟩
    exact ⟨grammar, operated⟩
  | name named => exact allParts_namedNode named
  | literal found => exact allParts_literalNode found
  | parenthesized _ ih | grouped _ ih => exact ih
  | vector _ _ _ ihLeft ihRight => exact (ihLeft.cons ihRight).other rfl
  | integer found => exact (allParts_literalNode found).other rfl
  | negativeInteger found =>
    exact ((Tree.allParts_nil.other rfl).cons (allParts_literalNode found)).other rfl

theorem isRaised_of_read {source : String}
    (h : Parser.read setting grammar source = .ok tree) (isPart : tree.Part part) :
    part.IsRaised := by
  obtain ⟨tokens, _, reached⟩ := exists_tokens_of_read h
  obtain ⟨derivation, numbering, _, _, evaluates⟩ := readTokens_evaluated reached
  exact evaluates.allParts tree List.mem_cons_self part isPart

end Raised

namespace Parser

/-- The base of a factor has been read and is a zero that is not raised to zero, and its exponent
has been read and is zero. -/
inductive Call.ZeroToZero (vocabulary : Vocabulary) : Call → Location → Prop where
  | factor {grammar : Grammar} {state later stop : State} {base exponent : Expression}
      (read : (Parser.atom (.unlimited vocabulary) grammar state).outcome = .ok (base, later))
      (sign : later.kind = .power)
      (further : (Parser.exponent (.unlimited vocabulary) later.advance).outcome =
        .ok (exponent, stop))
      (isZero : (Worth.ofAtom grammar base.root.worth).isConstantZero = true)
      (zeroth : (exponent.value == 0.0) = true) :
      ZeroToZero vocabulary (.factor grammar state) exponent.root.location

/-- Zero is raised to zero in a call or in one that is made in it. -/
def Call.RaisesZero (vocabulary : Vocabulary) (call : Call) (location : Location) : Prop :=
  ∃ reached, call.Reaches vocabulary reached ∧ reached.ZeroToZero vocabulary location

variable {vocabulary : Vocabulary} {grammar : Grammar} {site stop : State} {call : Call}
  {tokens : List Token} {location : Location}

namespace Call

theorem ZeroToZero.fails (zero : call.ZeroToZero vocabulary location) :
    (call.freely vocabulary).1 = .error (.algebra .zeroToTheZero location) := by
  obtain ⟨read, sign, further, isZero, zeroth⟩ := zero
  have refused := Worth.power_eq_zeroToTheZero_iff.mpr ⟨isZero, zeroth⟩
  refine Step.ending_eq_error.mpr ?_
  rw [Step.result_eq_map_outcome, factor_outcome, read, Except.ok_bind]
  dsimp only
  rw [if_pos sign, further, Except.ok_bind]
  dsimp only
  change Except.map _ (Parser.locate _ (Worth.power _ (Expression.value _)) >>= _) = _
  rw [refused]
  rfl

theorem Cause.zeroToZero
    (cause : call.Cause vocabulary site (.algebra .zeroToTheZero location) stop) :
    call.ZeroToZero vocabulary location := by
  cases cause with
  | token about _ => cases about
  | sum _ _ refused => cases Worth.add_failsOnly _ refused
  | first _ _ _ refused => cases Chain.ofFactor_failsOnly _ refused
  | product _ _ refused | silent _ _ refused => cases Chain.apply_failsOnly _ refused
  | power read sign further refused =>
    obtain ⟨isZero, zeroth⟩ := Worth.power_eq_zeroToTheZero_iff.mp refused
    rw [← (exponent_location further).1]
    exact .factor read sign further isZero zeroth
  | vector _ _ _ _ _ _ refused => cases Quantity.vectorProduct_failsOnly _ refused

theorem Fault.raisesZero
    (fault : call.Fault vocabulary site (.algebra .zeroToTheZero location) stop) :
    call.RaisesZero vocabulary location := by
  generalize same : ParseError.algebra .zeroToTheZero location = error at fault
  induction fault with
  | itself _ _ cause =>
    subst same
    exact ⟨_, .itself _, cause.zeroToZero⟩
  | within made _ _ ih =>
    obtain ⟨reached, reaches, zero⟩ := ih same
    exact ⟨reached, .within made reaches, zero⟩

end Call

theorem unlimited_zeroToTheZero_iff :
    readTokens (.unlimited vocabulary) grammar tokens =
        .error (.algebra .zeroToTheZero location) ↔
      (Call.whole grammar (.ofCursor (.ofTokens tokens))).RaisesZero vocabulary location := by
  constructor
  · intro failed
    obtain ⟨_, _, _, fault⟩ := fails_whole _ failed
    exact fault.raisesZero
  · rintro ⟨reached, reaches, zero⟩
    exact Step.ending_eq_error.mp (Call.fails_of_reaches reaches zero.fails)

/-- What is read within the limit is refused as it is without one. -/
theorem standard_zeroToTheZero_iff :
    readTokens (.standard vocabulary) grammar tokens =
        .error (.algebra .zeroToTheZero location) ↔
      (∀ count, (Call.whole grammar (.ofCursor (.ofTokens tokens))).Opens vocabulary count →
        count ≤ nestingLimit) ∧
      (Call.whole grammar (.ofCursor (.ofTokens tokens))).RaisesZero vocabulary location := by
  have limits := limits_readTokens vocabulary nestingLimit grammar tokens
  rw [← unlimited_zeroToTheZero_iff]
  constructor
  · intro failed
    have within : ∀ count, (Call.whole grammar (.ofCursor (.ofTokens tokens))).Opens vocabulary
        count → count ≤ nestingLimit := by
      intro count opens
      by_contra more
      have tooDeep := limits.tooDeep_of_opens rfl opens (Nat.lt_of_not_le more)
      exact nomatch failed.symm.trans tooDeep
    exact ⟨within, limits.eq_of_opens rfl within ▸ failed⟩
  · rintro ⟨within, failed⟩
    exact (limits.eq_of_opens rfl within).trans failed

end Parser

open Expression

section Read

variable {vocabulary : Vocabulary} {source : String} {tree part atom sign exponent : Expression}

/-- A zeroth power that is read is the one of its base, which is no zero that is refused. -/
theorem zeroth_of_read (h : read (.standard vocabulary) .quantity source = .ok tree)
    (isPart : tree.Part part) (shape : part.root.shape = .factor)
    (raised : part.children = [atom, sign, exponent]) (zeroth : (exponent.value == 0.0) = true) :
    ∃ grammar, (Worth.ofAtom grammar atom.root.worth).isConstantZero = false ∧
      part.root.worth = (Worth.ofAtom grammar atom.root.worth).unit := by
  obtain ⟨grammar, power⟩ := isRaised_of_read h isPart shape atom sign exponent raised
  rw [Worth.power_zeroth zeroth] at power
  split at power
  · cases power
  · rename_i other
    exact ⟨grammar, Bool.eq_false_iff.mpr other, (Except.ok.inj power).symm⟩

theorem zeroToTheZero_iff {location : Location} :
    read (.standard vocabulary) .quantity source = .error (.algebra .zeroToTheZero location) ↔
      ∃ tokens, Scanner.tokenize source = .ok tokens ∧
        (∀ count, (Call.whole .quantity (.ofCursor (.ofTokens tokens))).Opens vocabulary count →
          count ≤ nestingLimit) ∧
        (Call.whole .quantity (.ofCursor (.ofTokens tokens))).RaisesZero vocabulary location := by
  cases scanned : Scanner.tokenize source with
  | error token =>
    have refused : read (.standard vocabulary) .quantity source = .error (.invalidToken token) := by
      unfold Parser.read State.ofSource
      rw [scanned]
      rfl
    simp [refused]
  | ok tokens =>
    rw [read_eq_readTokens scanned, standard_zeroToTheZero_iff]
    simp

end Read

/-- What is raised to zero in a quantity that is read is no zero that is a number or a constant
quantity, and comes to the constant one. A source is refused for zero to the zero exactly where the
reading comes to such a zero and has not opened too many expressions before, at the exponent. -/
theorem zeroth_powers_exact (vocabulary : Vocabulary) (source : String) :
    (∀ tree part atom sign exponent : Expression,
      read (.standard vocabulary) .quantity source = .ok tree → tree.Part part →
      part.root.shape = .factor → part.children = [atom, sign, exponent] →
      (exponent.value == 0.0) = true →
      (part.root.quantity? = none → (atom.value == 0.0) = false ∧ part.root.value = 1.0) ∧
      (∀ quantity, part.root.quantity? = some quantity →
        (atom.model.isConstant && atom.model.value == 0.0) = false ∧
        quantity = { Quantity.constant 1.0 with identifier? := atom.model.identifier? })) ∧
    ∀ location,
      read (.standard vocabulary) .quantity source = .error (.algebra .zeroToTheZero location) ↔
        ∃ tokens, Scanner.tokenize source = .ok tokens ∧
          (∀ count, (Call.whole .quantity (.ofCursor (.ofTokens tokens))).Opens vocabulary count →
            count ≤ nestingLimit) ∧
          (Call.whole .quantity (.ofCursor (.ofTokens tokens))).RaisesZero vocabulary location := by
  refine ⟨fun tree part atom sign exponent h isPart shape raised zeroth => ?_,
    fun _ => zeroToTheZero_iff⟩
  obtain ⟨grammar, other, worth⟩ := zeroth_of_read h isPart shape raised zeroth
  rw [Node.quantity?, Node.value, worth]
  cases grammar with
  | numeric => exact ⟨fun _ => ⟨other, rfl⟩, nofun⟩
  | quantity => exact ⟨nofun, fun _ same => ⟨other, (Option.some.inj same).symm⟩⟩

/-- The number zero is raised to zero and refused at the exponent. -/
theorem exists_zero_refused :
    ∃ tokens, Scanner.tokenize "0 ** (2 - 2)" = .ok tokens ∧
      (Call.whole .quantity (.ofCursor (.ofTokens tokens))).RaisesZero Scope.si.vocabulary
        ⟨6, 1, 7⟩ := by
  have refused : read (.standard Scope.si.vocabulary) .quantity "0 ** (2 - 2)" =
      .error (.algebra .zeroToTheZero ⟨6, 1, 7⟩) := by
    apply Except.error?_eq_some.mp
    decide +kernel
  obtain ⟨_, refused_iff⟩ := zeroth_powers_exact Scope.si.vocabulary "0 ** (2 - 2)"
  obtain ⟨tokens, scanned, _, raises⟩ := (refused_iff _).mp refused
  exact ⟨tokens, scanned, raises⟩

/-- No kilograms are known to be zero, and are raised to zero. -/
theorem exists_known_zero_raised :
    ∃ tree part atom sign exponent : Expression,
      read (.standard Scope.si.vocabulary) .quantity "(0 kg) ** 0" = .ok tree ∧ tree.Part part ∧
      part.root.shape = .factor ∧ part.children = [atom, sign, exponent] ∧
      atom.model.hasValue = true ∧ atom.model.value = 0.0 ∧ exponent.value = 0.0 ∧
      part.model = .constant 1.0 := by
  have accepted : ((read (.standard Scope.si.vocabulary) .quantity "(0 kg) ** 0").toOption.bind
      fun tree => tree.children.head?.bind fun term => term.children.head?.map fun part =>
        (part.root.shape, model part, part.children.map fun child =>
          ((model child).hasValue, (model child).value, Expression.value child))) =
      some (.factor, .constant 1.0, [(true, 0.0, 0.0), (false, 0.0, 0.0), (false, 0.0, 0.0)]) := by
    decide +kernel
  obtain ⟨tree, reached, found⟩ := Option.bind_eq_some_iff.mp accepted
  obtain ⟨term, ofTree, found⟩ := Option.bind_eq_some_iff.mp found
  obtain ⟨part, ofTerm, found⟩ := Option.map_eq_some_iff.mp found
  obtain ⟨shape, one, below⟩ : part.root.shape = .factor ∧ part.model = .constant 1.0 ∧ _ := by
    simpa only [Prod.mk.injEq] using found
  obtain ⟨atom, sign, exponent, raised⟩ : ∃ atom sign exponent,
      part.children = [atom, sign, exponent] :=
    List.length_eq_three.mp ((List.length_map _).symm.trans (congrArg List.length below))
  simp only [raised, List.map_cons, List.cons.injEq, Prod.mk.injEq] at below
  obtain ⟨⟨known, zero, _⟩, _, ⟨_, _, zeroth⟩, _⟩ := below
  have isPart : tree.Part part := .of_child (List.mem_of_mem_head? ofTree)
    (.of_child (List.mem_of_mem_head? ofTerm) .whole)
  exact ⟨tree, part, atom, sign, exponent, Except.toOption_eq_some.mp reached, isPart, shape,
    raised, known, zero, zeroth, one⟩

end Dimensional
